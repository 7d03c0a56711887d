import Mathlib.Data.List.Basic
import Mathlib.Data.List.Perm.Basic
import Mathlib.Data.List.Induction
import Mathlib.Data.List.Nodup

/-!
# Ordered maps as sorted association lists

A finite map whose entries are kept in strictly increasing key order, as `std::map` keeps them.  The order
is part of the structure, so two maps with the same bindings have the same entries and a traversal visits
each key once.

* `OrderedMap.find?`, `OrderedMap.insert`, `OrderedMap.erase`: look-up, `m[k] = v`, removal.
* `find?_insert_self`, `find?_insert_of_ne`: what a look-up sees after an insertion.
* `find?_eq_some_iff`, `find?_erase_self`, `find?_erase_of_ne`: the entries and the look-up agree, and what
  a look-up sees after a removal.
* `OrderedMap.insertAll`: several insertions; `perm_entries`: the entries as a list in another order.
* `OrderedMap.pushBack`: `m[k].push_back(v)`, for a map of lists.

## Why the entries are a list

A program that writes a map out writes it in the order of its entries, and a theorem about the bytes that it
writes needs that order.  A map as a function, or as a finite set of pairs, has lost it.  With the list the
traversal is a `flatMap`, and what a traversal sees is tied to the look-ups by `find?_eq_some_iff`.

## Where the order is used

The two lemmas about an insertion do not need it: an insertion stops at the first entry that is not smaller,
and a look-up walks the whole list.  It is used where an entry is looked up that is known to be in the list,
since no key is there twice; and in `perm_entries`, where the order is what is forgotten.  The class
assumptions say the same: only the lemmas that compare three keys ask for a transitive comparison.
-/

/-- A map from `κ` to `ν`, its entries in strictly increasing key order. -/
structure OrderedMap (κ ν : Type*) [Ord κ] where
  entries : List (κ × ν)
  sorted : entries.Pairwise fun a b => compare a.1 b.1 = .lt

namespace OrderedMap

variable {κ ν : Type*} [Ord κ]

/-- Insertion into the entries: replace the entry of the key, or put it in order. -/
def insertEntry (k : κ) (v : ν) : List (κ × ν) → List (κ × ν)
  | [] => [(k, v)]
  | e :: l =>
    match compare k e.1 with
    | .lt => (k, v) :: e :: l
    | .eq => (k, v) :: l
    | .gt => e :: insertEntry k v l

/-- Look-up in the entries. -/
def findEntry (k : κ) : List (κ × ν) → Option ν
  | [] => none
  | e :: l => if compare k e.1 = .eq then some e.2 else findEntry k l

/-- An entry after an insertion is the new one or was there before. -/
theorem mem_insertEntry {k : κ} {v : ν} {e : κ × ν} :
    ∀ {l : List (κ × ν)}, e ∈ insertEntry k v l → e = (k, v) ∨ e ∈ l
  | [], h => by simpa [insertEntry] using h
  | a :: l, h => by
    unfold insertEntry at h
    split at h
    · simpa using h
    · rcases List.mem_cons.mp h with h | h
      · exact Or.inl h
      · exact Or.inr (List.mem_cons_of_mem _ h)
    · rcases List.mem_cons.mp h with h | h
      · exact Or.inr (h ▸ List.mem_cons_self ..)
      · exact (mem_insertEntry h).imp id (List.mem_cons_of_mem _)

variable [Std.TransOrd κ] [Std.LawfulEqOrd κ]

/-- Insertion keeps the entries in order. -/
theorem pairwise_insertEntry (k : κ) (v : ν) : ∀ {l : List (κ × ν)},
    l.Pairwise (fun a b => compare a.1 b.1 = .lt) →
      (insertEntry k v l).Pairwise fun a b => compare a.1 b.1 = .lt
  | [], _ => by simp [insertEntry]
  | a :: l, h => by
    obtain ⟨ha, hl⟩ := List.pairwise_cons.mp h
    unfold insertEntry
    split
    · rename_i hk
      refine List.pairwise_cons.mpr ⟨fun b hb => ?_, h⟩
      rcases List.mem_cons.mp hb with rfl | hb
      · exact hk
      · exact Std.TransCmp.lt_trans hk (ha b hb)
    · rename_i hk
      have hka : k = a.1 := Std.LawfulEqCmp.eq_of_compare hk
      exact List.pairwise_cons.mpr ⟨fun b hb => hka ▸ ha b hb, hl⟩
    · rename_i hk
      refine List.pairwise_cons.mpr ⟨fun b hb => ?_, pairwise_insertEntry k v hl⟩
      rcases mem_insertEntry hb with rfl | hb
      · exact Std.OrientedCmp.lt_of_gt hk
      · exact ha b hb

/-- The empty map. -/
def empty : OrderedMap κ ν := ⟨[], List.Pairwise.nil⟩

/-- The value of a key, if it has one.  The first entry of a key is its only one. -/
def find? (m : OrderedMap κ ν) (k : κ) : Option ν := findEntry k m.entries

/-- `m[k] = v`: the value of a key that is there is replaced, and a new key goes to its place in the order. -/
def insert (m : OrderedMap κ ν) (k : κ) (v : ν) : OrderedMap κ ν :=
  ⟨insertEntry k v m.entries, pairwise_insertEntry k v m.sorted⟩

/-- Removal of a key; nothing happens where it is not there. -/
def erase (m : OrderedMap κ ν) (k : κ) : OrderedMap κ ν :=
  ⟨m.entries.filter fun e => compare k e.1 != .eq, m.sorted.filter _⟩

omit [Std.TransOrd κ] [Std.LawfulEqOrd κ] in
@[simp] theorem find?_empty (k : κ) : (empty : OrderedMap κ ν).find? k = none := rfl

omit [Std.TransOrd κ] in
/-- The look-up finds what was inserted: both stop at the same place. -/
theorem findEntry_insertEntry_self (k : κ) (v : ν) :
    ∀ l : List (κ × ν), findEntry k (insertEntry k v l) = some v
  | [] => by simp [insertEntry, findEntry]
  | a :: l => by
    unfold insertEntry
    split
    · simp [findEntry]
    · simp [findEntry]
    · rename_i hk
      rw [findEntry, if_neg (by rw [hk]; decide), findEntry_insertEntry_self k v l]

omit [Std.TransOrd κ] in
theorem findEntry_insertEntry_of_ne {k k' : κ} (h : k' ≠ k) (v : ν) :
    ∀ l : List (κ × ν), findEntry k' (insertEntry k v l) = findEntry k' l
  | [] => by simp [insertEntry, findEntry, h]
  | a :: l => by
    unfold insertEntry
    split
    · simp [findEntry, h]
    · rename_i hk
      have hka : k = a.1 := Std.LawfulEqCmp.eq_of_compare hk
      rw [findEntry, findEntry, ← hka]
      simp [h]
    · rw [findEntry, findEntry, findEntry_insertEntry_of_ne h v l]

/-- After `m[k] = v` the value of `k` is `v`. -/
@[simp] theorem find?_insert_self (m : OrderedMap κ ν) (k : κ) (v : ν) :
    (m.insert k v).find? k = some v :=
  findEntry_insertEntry_self k v m.entries

theorem entries_insert_ne_nil (m : OrderedMap κ ν) (k : κ) (v : ν) : (m.insert k v).entries ≠ [] := by
  intro hnil
  have hfind := m.find?_insert_self k v
  rw [find?, hnil] at hfind
  cases hfind

/-- `m[k] = v` changes no other key. -/
theorem find?_insert_of_ne (m : OrderedMap κ ν) {k k' : κ} (h : k' ≠ k) (v : ν) :
    (m.insert k v).find? k' = m.find? k' :=
  findEntry_insertEntry_of_ne h v m.entries

/-! ## Entries -/

omit [Std.TransOrd κ] in
/-- What is looked up is an entry. -/
theorem mem_of_findEntry {k : κ} {v : ν} :
    ∀ {l : List (κ × ν)}, findEntry k l = some v → (k, v) ∈ l
  | [], h => by cases h
  | e :: l, h => by
    unfold findEntry at h
    split at h
    · rename_i hk
      rw [Std.LawfulEqCmp.eq_of_compare hk, ← Option.some.inj h]
      exact List.mem_cons_self ..
    · exact List.mem_cons_of_mem _ (mem_of_findEntry h)

/-- An entry is looked up, since the entries before it have smaller keys. -/
theorem findEntry_of_mem {k : κ} {v : ν} : ∀ {l : List (κ × ν)},
    l.Pairwise (fun a b => compare a.1 b.1 = .lt) → (k, v) ∈ l → findEntry k l = some v
  | e :: l, hsorted, hmem => by
    obtain ⟨hhead, htail⟩ := List.pairwise_cons.mp hsorted
    unfold findEntry
    rcases List.mem_cons.mp hmem with rfl | hmem
    · rw [if_pos Std.ReflCmp.compare_self]
    · -- the key of a later entry is greater, so that the look-up goes on
      have hlt : compare e.1 k = .lt := hhead _ hmem
      have hgt : compare k e.1 = .gt := Std.OrientedCmp.gt_of_lt hlt
      rw [if_neg (by rw [hgt]; decide)]
      exact findEntry_of_mem htail hmem

/-- The entries and the look-up agree, so that a map may be reasoned about through either. -/
theorem find?_eq_some_iff {m : OrderedMap κ ν} {k : κ} {v : ν} :
    m.find? k = some v ↔ (k, v) ∈ m.entries :=
  ⟨mem_of_findEntry, findEntry_of_mem m.sorted⟩

/-- A removed key has no value. -/
@[simp] theorem find?_erase_self (m : OrderedMap κ ν) (k : κ) : (m.erase k).find? k = none := by
  rw [Option.eq_none_iff_forall_ne_some]
  intro v hfind
  have hmem := (List.mem_filter.mp (find?_eq_some_iff.mp hfind)).2
  simp at hmem

/-- A removal changes no other key. -/
theorem find?_erase_of_ne (m : OrderedMap κ ν) {k k' : κ} (h : k' ≠ k) :
    (m.erase k).find? k' = m.find? k' := by
  refine Option.ext fun v => ?_
  rw [find?_eq_some_iff, find?_eq_some_iff, erase, List.mem_filter]
  have hne : compare k k' ≠ .eq := fun heq => h (Std.LawfulEqCmp.eq_of_compare heq).symm
  simp [hne]

/-- The value of a key after a removal was its value before, and the key was another one. -/
theorem find?_erase_eq_some {m : OrderedMap κ ν} {k k' : κ} {v : ν}
    (h : (m.erase k).find? k' = some v) : k' ≠ k ∧ m.find? k' = some v := by
  have hne : k' ≠ k := by
    rintro rfl
    rw [find?_erase_self] at h
    cases h
  exact ⟨hne, by rwa [find?_erase_of_ne m hne] at h⟩

omit [Std.TransOrd κ] in
/-- No entry is there twice. -/
theorem nodup_entries (m : OrderedMap κ ν) : m.entries.Nodup := by
  refine m.sorted.imp fun {a b} hlt heq => ?_
  rw [heq, @Std.ReflCmp.compare_self κ compare] at hlt
  cases hlt

/-- The entries of a map are a list of bindings in another order, when the look-up says the same. -/
theorem perm_entries {m : OrderedMap κ ν} {l : List (κ × ν)} (hl : l.Nodup)
    (h : ∀ k v, m.find? k = some v ↔ (k, v) ∈ l) : m.entries.Perm l := by
  refine (List.perm_ext_iff_of_nodup m.nodup_entries hl).mpr fun e => ?_
  rw [← h e.1 e.2, find?_eq_some_iff]

/-- A binding that the look-up sees is there as often as in a list without repetitions. -/
theorem count_entries_of_find? [BEq κ] [LawfulBEq κ] [BEq ν] [LawfulBEq ν] {m : OrderedMap κ ν}
    {l : List (κ × ν)} (hl : l.Nodup) {e : κ × ν} (he : e ∈ l) (hfind : m.find? e.1 = some e.2) :
    m.entries.count e = l.count e := by
  rw [List.count_eq_one_of_mem hl he]
  exact List.count_eq_one_of_mem m.nodup_entries (find?_eq_some_iff.mp hfind)

/-- A map has each binding of a list as often as the list does only where the list has no key twice. -/
theorem nodup_keys_of_count [BEq κ] [LawfulBEq κ] [BEq ν] [LawfulBEq ν] {m : OrderedMap κ ν}
    {l : List (κ × ν)} (h : ∀ e ∈ l, m.entries.count e = l.count e) : (l.map Prod.fst).Nodup := by
  have hmem : ∀ e ∈ l, e ∈ m.entries := fun e he =>
    List.count_pos_iff.mp (by rw [h e he]; exact List.count_pos_iff.mpr he)
  refine List.Nodup.map_on (fun e he e' he' hkey => ?_) ?_
  · have hfind := find?_eq_some_iff.mpr (hmem e he)
    have hfind' := find?_eq_some_iff.mpr (hmem e' he')
    rw [hkey, hfind'] at hfind
    exact Prod.ext hkey (Option.some.inj hfind).symm
  · rw [List.nodup_iff_count_le_one]
    intro e
    by_cases he : e ∈ l
    · rw [← h e he]
      exact List.nodup_iff_count_le_one.mp m.nodup_entries e
    · rw [List.count_eq_zero_of_not_mem he]
      exact Nat.zero_le _

/-! ## Several insertions -/

/-- `m[k] = v` for each of the bindings, from the first on, so that a later one replaces an earlier one. -/
def insertAll (m : OrderedMap κ ν) (l : List (κ × ν)) : OrderedMap κ ν :=
  l.foldl (fun m e => m.insert e.1 e.2) m

theorem insertAll_append (m : OrderedMap κ ν) (l₁ l₂ : List (κ × ν)) :
    m.insertAll (l₁ ++ l₂) = (m.insertAll l₁).insertAll l₂ :=
  List.foldl_append ..

theorem find?_insertAll_of_notMem {k : κ} {l : List (κ × ν)} (h : k ∉ l.map Prod.fst)
    (m : OrderedMap κ ν) : (m.insertAll l).find? k = m.find? k := by
  induction l generalizing m with
  | nil => rfl
  | cons e l ih =>
    rw [List.map_cons, List.mem_cons, not_or] at h
    exact (ih h.2 _).trans (find?_insert_of_ne m h.1 e.2)

/-- The bindings of different keys are all there. -/
theorem find?_insertAll_of_mem {k : κ} {v : ν} {l : List (κ × ν)} (hl : (l.map Prod.fst).Nodup)
    (h : (k, v) ∈ l) (m : OrderedMap κ ν) : (m.insertAll l).find? k = some v := by
  induction l generalizing m with
  | nil => cases h
  | cons e l ih =>
    rw [List.map_cons, List.nodup_cons] at hl
    rcases List.mem_cons.mp h with rfl | h
    · exact (find?_insertAll_of_notMem hl.1 _).trans (find?_insert_self m k v)
    · exact ih hl.2 h _

/-- The binding of a key that was made last is the one that is seen. -/
theorem find?_insertAll [DecidableEq κ] (m : OrderedMap κ ν) (l : List (κ × ν)) (k : κ) :
    (m.insertAll l).find? k =
      (((l.filter fun e => e.1 = k).getLast?).map Prod.snd).or (m.find? k) := by
  induction l using List.reverseRecOn with
  | nil => rfl
  | append_singleton l e ih =>
    rw [insertAll_append, List.filter_append]
    by_cases hk : e.1 = k
    · subst hk
      simp [insertAll]
    · have hne : (m.insertAll (l ++ [e])).find? k = (m.insertAll l).find? k := by
        rw [insertAll_append]
        exact find?_insert_of_ne _ (Ne.symm hk) e.2
      rw [← insertAll_append, hne, ih]
      simp [hk]

/-- Where the bindings of a key agree, it does not matter which of them was made last. -/
theorem find?_insertAll_eq_some_iff {k : κ} {v : ν} {l : List (κ × ν)}
    (hl : ∀ e ∈ l, ∀ e' ∈ l, e.1 = e'.1 → e.2 = e'.2) (m : OrderedMap κ ν) :
    (m.insertAll l).find? k = some v ↔
      (k, v) ∈ l ∨ k ∉ l.map Prod.fst ∧ m.find? k = some v := by
  induction l generalizing m with
  | nil => simp [insertAll]
  | cons e l ih =>
    have hrest := ih (fun a ha b hb => hl a (List.mem_cons_of_mem e ha) b (List.mem_cons_of_mem e hb))
      (m.insert e.1 e.2)
    refine hrest.trans ?_
    by_cases hk : k = e.1
    · subst hk
      have hvalue : (e.1, v) ∈ l → e.2 = v := fun hmem =>
        hl e List.mem_cons_self _ (List.mem_cons_of_mem e hmem) rfl
      rw [find?_insert_self]
      simp only [List.mem_cons, List.map_cons, true_or, not_true, false_and, or_false, Prod.ext_iff,
        true_and, Option.some.injEq]
      constructor
      · rintro (hmem | ⟨-, rfl⟩)
        · exact Or.inr hmem
        · exact Or.inl rfl
      · rintro (rfl | hmem)
        · by_cases hmem : (e.1, e.2) ∈ l
          · exact Or.inl hmem
          · refine Or.inr ⟨fun hkey => hmem ?_, rfl⟩
            obtain ⟨e', he', hkey'⟩ := List.mem_map.mp hkey
            have hsame := hl e List.mem_cons_self e' (List.mem_cons_of_mem e he') hkey'.symm
            rwa [← hkey', hsame]
        · exact Or.inl hmem
    · rw [find?_insert_of_ne m hk]
      simp [hk, Prod.ext_iff]

/-! ## Maps of lists -/

/-- `m[k].push_back(v)`: a key without a value starts from the empty list. -/
def pushBack {α : Type*} (m : OrderedMap κ (List α)) (k : κ) (v : α) : OrderedMap κ (List α) :=
  m.insert k ((m.find? k).getD [] ++ [v])

theorem find?_pushBack_self {α : Type*} (m : OrderedMap κ (List α)) (k : κ) (v : α) :
    (m.pushBack k v).find? k = some ((m.find? k).getD [] ++ [v]) :=
  find?_insert_self m k _

theorem find?_pushBack_of_ne {α : Type*} (m : OrderedMap κ (List α)) {k k' : κ} (h : k' ≠ k)
    (v : α) : (m.pushBack k v).find? k' = m.find? k' :=
  find?_insert_of_ne m h _

end OrderedMap
