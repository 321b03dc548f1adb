import Mathlib

/-!
# Finite tables and what they total

A table is Mathlib's extensional finite map at a constant value type. Mathlib owns its lookup
laws; this module adds the two case forms that rewriting needs, the total of a quantity over
all entries, and the laws by which one insertion or one erasure changes such a total. Taking
the quantity in `Multiset` counts what the entries own, with multiplicity.
-/

/-- A finite map from keys to values. -/
abbrev Table (Key Value : Type*) := Finmap fun _ : Key => Value

namespace Table

variable {Key Value Total : Type*} [DecidableEq Key]

/-- Lookup after an insertion, by the key asked for. -/
theorem lookup_insert_if (table : Table Key Value) (asked key : Key) (value : Value) :
    (table.insert key value).lookup asked =
      if asked = key then some value else table.lookup asked := by
  by_cases same : asked = key
  · subst same
    simp
  · rw [if_neg same, Finmap.lookup_insert_of_ne _ same]

/-- Lookup after an erasure, by the key asked for. -/
theorem lookup_erase_if (table : Table Key Value) (asked key : Key) :
    (table.erase key).lookup asked = if asked = key then none else table.lookup asked := by
  by_cases same : asked = key
  · subst same
    simp
  · rw [if_neg same, Finmap.lookup_erase_ne same]

/-- The value under a key, or the default where there is none. -/
def slot [Inhabited Value] (table : Table Key Value) (key : Key) : Value :=
  (table.lookup key).getD default

/-- Indexing an unordered map by a key makes a default entry when the key is absent. -/
def touch [Inhabited Value] (table : Table Key Value) (key : Key) : Table Key Value :=
  if key ∈ table then table else table.insert key default

/-- Indexing by a key that is present changes nothing. -/
theorem touch_of_mem [Inhabited Value] {table : Table Key Value} {key : Key}
    (present : key ∈ table) : table.touch key = table := if_pos present

/-- Indexing by a key that is present gives its value. -/
theorem slot_of_lookup [Inhabited Value] {table : Table Key Value} {key : Key} {value : Value}
    (found : table.lookup key = some value) : table.slot key = value := by
  rw [slot, found, Option.getD_some]

/-- Erasing a key and putting its value back restores the table. -/
theorem insert_erase {table : Table Key Value} {key : Key} {value : Value}
    (found : table.lookup key = some value) : (table.erase key).insert key value = table := by
  apply Finmap.ext_lookup
  intro asked
  rw [lookup_insert_if, lookup_erase_if]
  split
  · rename_i same
    rw [same, found]
  · rfl

/-- An insertion only sees the table without the key. -/
theorem erase_insert (table : Table Key Value) (key : Key) (value : Value) :
    (table.erase key).insert key value = table.insert key value := by
  apply Finmap.ext_lookup
  intro asked
  rw [lookup_insert_if, lookup_insert_if, lookup_erase_if]
  split <;> rfl

/-- The table without any of the keys. -/
def eraseAll (table : Table Key Value) (keys : List Key) : Table Key Value :=
  keys.foldl (fun rest key => rest.erase key) table

/-- Erasing no key. -/
@[simp] theorem eraseAll_nil (table : Table Key Value) : table.eraseAll [] = table := rfl

/-- Erasing a first key and then the others. -/
@[simp] theorem eraseAll_cons (table : Table Key Value) (key : Key) (keys : List Key) :
    table.eraseAll (key :: keys) = eraseAll (table.erase key) keys := rfl

/-- Lookup after erasing several keys. -/
theorem lookup_eraseAll (table : Table Key Value) (keys : List Key) (asked : Key) :
    (table.eraseAll keys).lookup asked = if asked ∈ keys then none else table.lookup asked := by
  induction keys generalizing table with
  | nil => simp
  | cons key keys ih =>
    rw [eraseAll_cons, ih, lookup_erase_if]
    by_cases later : asked ∈ keys
    · simp [later]
    · by_cases same : asked = key <;> simp [later, same]

/-! ## Totals -/

variable [AddCommMonoid Total]

/-- The sum of a quantity over all entries. -/
def total (measure : Key → Value → Total) (table : Table Key Value) : Total :=
  (table.entries.map fun entry => measure entry.1 entry.2).sum

omit [DecidableEq Key] in
/-- An empty table totals nothing. -/
@[simp] theorem total_empty (measure : Key → Value → Total) :
    total measure (∅ : Table Key Value) = 0 := rfl

/-- The total is the sum over the keys of what their values measure. -/
theorem total_eq_sum_keys [Inhabited Value] (measure : Key → Value → Total)
    (table : Table Key Value) :
    total measure table = (table.keys.val.map fun key => measure key (table.slot key)).sum := by
  have keys : table.keys.val = table.entries.map Sigma.fst := rfl
  rw [total, keys, Multiset.map_map]
  congr 1
  apply Multiset.map_congr rfl
  rintro ⟨key, value⟩ listed
  have found : table.lookup key = some value := Finmap.mem_lookup_iff.mpr listed
  rw [Function.comp_apply, slot_of_lookup found]

/-- A new key adds its measure. -/
theorem total_insert_of_notMem (measure : Key → Value → Total) {table : Table Key Value}
    {key : Key} (value : Value) (absent : key ∉ table) :
    total measure (table.insert key value) = measure key value + total measure table := by
  rw [total, Finmap.entries_insert_of_notMem absent, Multiset.map_cons, Multiset.sum_cons, total]

/-- An entry's measure and the total without it make the total. -/
theorem total_erase (measure : Key → Value → Total) {table : Table Key Value} {key : Key}
    {value : Value} (found : table.lookup key = some value) :
    measure key value + total measure (table.erase key) = total measure table := by
  rw [← total_insert_of_notMem measure value Finmap.notMem_erase_self, insert_erase found]

/-- Overwriting replaces whatever the key measured before. -/
theorem total_insert (measure : Key → Value → Total) (table : Table Key Value) (key : Key)
    (value : Value) :
    total measure (table.insert key value) =
      measure key value + total measure (table.erase key) := by
  rw [← erase_insert, total_insert_of_notMem measure value Finmap.notMem_erase_self]

/-- Erasing a key that is absent changes nothing. -/
theorem erase_of_notMem {table : Table Key Value} {key : Key} (absent : key ∉ table) :
    table.erase key = table := by
  apply Finmap.ext_lookup
  intro asked
  rw [lookup_erase_if]
  split
  · rename_i same
    rw [same, Finmap.lookup_eq_none.mpr absent]
  · rfl

/-- The list under a key and the other lists make the total of a table of lists. -/
theorem total_slot {Item : Type*} (measure : Item → Total) (table : Table Key (List Item))
    (key : Key) :
    ((table.slot key).map measure).sum +
        total (fun _ items => (items.map measure).sum) (table.erase key) =
      total (fun _ items => (items.map measure).sum) table := by
  cases found : table.lookup key with
  | none =>
    rw [slot, found, erase_of_notMem (Finmap.lookup_eq_none.mp found)]
    exact zero_add _
  | some items =>
    rw [slot_of_lookup found]
    exact total_erase (fun _ items => (items.map measure).sum) found

/-- Pushing an item to the list under a key adds the measure of the item. -/
theorem total_push {Item : Type*} (measure : Item → Total) (table : Table Key (List Item))
    (key : Key) (item : Item) :
    total (fun _ items => (items.map measure).sum) (table.insert key (table.slot key ++ [item])) =
      total (fun _ items => (items.map measure).sum) table + measure item := by
  rw [total_insert, List.map_append, List.sum_append, List.map_singleton, List.sum_singleton,
    add_right_comm, total_slot]

/-- Erasing several entries takes the measure of each of them off the total. -/
theorem total_eraseAll (measure : Key → Value → Total) (keyOf : Value → Key)
    {table : Table Key Value} {values : List Value}
    (found : ∀ value ∈ values, table.lookup (keyOf value) = some value)
    (distinct : (values.map keyOf).Nodup) :
    (values.map fun value => measure (keyOf value) value).sum +
      total measure (table.eraseAll (values.map keyOf)) = total measure table := by
  induction values generalizing table with
  | nil => simp
  | cons value values ih =>
    rw [List.map_cons, List.nodup_cons] at distinct
    have kept : ∀ other ∈ values,
        (table.erase (keyOf value)).lookup (keyOf other) = some other := by
      intro other later
      have apart : keyOf other ≠ keyOf value := fun same =>
        distinct.1 (same ▸ List.mem_map_of_mem later)
      rw [lookup_erase_if, if_neg apart]
      exact found other (List.mem_cons_of_mem _ later)
    rw [List.map_cons, List.map_cons, List.sum_cons, eraseAll_cons, add_assoc, ih kept distinct.2]
    exact total_erase measure (found value List.mem_cons_self)

/-- A total of the values is the sum over the keys of what is in their slots. -/
theorem total_eq_sum_slot [Inhabited Value] (measure : Value → Total) (table : Table Key Value) :
    total (fun _ => measure) table =
      (table.keys.val.map fun key => measure (table.slot key)).sum := by
  have keys : table.keys.val = table.entries.map Sigma.fst := rfl
  rw [keys, Multiset.map_map]
  apply congrArg Multiset.sum
  apply Multiset.map_congr rfl
  intro entry inside
  have found := Finmap.lookup_eq_some_iff.mpr inside
  exact congrArg measure (slot_of_lookup found).symm

omit [DecidableEq Key] in
/-- What is additive may be taken of every entry before or after the total. -/
theorem map_total {Other : Type*} [AddCommMonoid Other] (additive : Total →+ Other)
    (measure : Key → Value → Total) (table : Table Key Value) :
    additive (total measure table) =
      total (fun key value => additive (measure key value)) table := by
  rw [total, map_multiset_sum, Multiset.map_map]
  rfl

/-- A table has at most as many keys as its entries measure, if each of them measures something. -/
theorem card_keys_le_total {measure : Key → Value → Nat} {table : Table Key Value}
    (positive : ∀ key value, table.lookup key = some value → 1 ≤ measure key value) :
    table.keys.card ≤ total measure table := by
  have keys : table.keys.card = Multiset.card (table.entries.map fun entry =>
      measure entry.1 entry.2) := by
    rw [Multiset.card_map]
    exact Multiset.card_map _ _
  have each : ∀ measured ∈ table.entries.map fun entry => measure entry.1 entry.2,
      1 ≤ measured := by
    intro measured inside
    obtain ⟨entry, entered, rfl⟩ := Multiset.mem_map.mp inside
    exact positive entry.1 entry.2 (Finmap.lookup_eq_some_iff.mpr entered)
  have sum := Multiset.card_nsmul_le_sum each
  rw [nsmul_one, Nat.cast_id, ← keys] at sum
  exact sum

/-- A multiset total contains what some entry contributes. -/
theorem mem_total {Item : Type*} {measure : Key → Value → Multiset Item}
    {table : Table Key Value} {item : Item} :
    item ∈ total measure table ↔
      ∃ key value, table.lookup key = some value ∧ item ∈ measure key value := by
  change item ∈ Multiset.join _ ↔ _
  rw [Multiset.mem_join]
  constructor
  · rintro ⟨part, inside, here⟩
    obtain ⟨entry, entered, rfl⟩ := Multiset.mem_map.mp inside
    exact ⟨entry.1, entry.2, Finmap.lookup_eq_some_iff.mpr entered, here⟩
  · rintro ⟨key, value, found, here⟩
    exact ⟨measure key value,
      Multiset.mem_map.mpr ⟨⟨key, value⟩, Finmap.lookup_eq_some_iff.mp found, rfl⟩, here⟩

omit [DecidableEq Key] in
/-- The keys of a table, each once, are the total of its single keys. -/
theorem total_keys (table : Table Key Value) :
    total (fun key _ => ({key} : Multiset Key)) table = table.keys.val := by
  have keyed : table.entries.map (fun entry => ({entry.1} : Multiset Key)) =
      (table.entries.map Sigma.fst).map fun key => {key} := by
    rw [Multiset.map_map]
    rfl
  rw [total, keyed, Multiset.sum_map_singleton]
  rfl

omit [DecidableEq Key] in
/-- The single items of a list sum to the list. -/
theorem sum_singletons {Item : Type*} (keyOf : Item → Key) (items : List Item) :
    (items.map fun item => ({keyOf item} : Multiset Key)).sum =
      ((items.map keyOf : List Key) : Multiset Key) := by
  induction items with
  | nil => rfl
  | cons item items ih =>
    rw [List.map_cons, List.sum_cons, ih, List.map_cons]
    rfl

end Table
