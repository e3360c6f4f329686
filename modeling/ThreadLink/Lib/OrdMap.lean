import Mathlib.Data.List.Nodup
import Mathlib.Data.List.Perm.Basic

/-!
# Maps that keep the order of insertion

`OrdMap κ ν` is a finite map as a list of its entries with distinct keys. The
list is the order in which a program that iterates over the map sees them.
Setting a key that is there keeps its place, a new key goes to the end, and a
key that is erased and set again goes to the end: the order of a JavaScript
`Map`. A hash table whose order of iteration is unspecified is such a map too,
with `permute` for what a rehash may do to the order.
-/

namespace ThreadLink

universe u v

/-- A finite map as the list of its entries; no key occurs twice. -/
structure OrdMap (κ : Type u) (ν : Type v) where
  /-- The entries, in the order of iteration. -/
  entries : List (κ × ν)
  /-- The keys are distinct. -/
  nodup : (entries.map Prod.fst).Nodup

namespace OrdMap

variable {κ : Type u} {ν : Type v}

@[ext] theorem ext {m m' : OrdMap κ ν} (h : m.entries = m'.entries) : m = m' := by
  cases m; cases m'; simpa using h

/-- The empty map. -/
def empty : OrdMap κ ν := ⟨[], List.nodup_nil⟩

/-- The keys, in order. -/
def keys (m : OrdMap κ ν) : List κ := m.entries.map Prod.fst

/-- The values, in the order of their keys. -/
def values (m : OrdMap κ ν) : List ν := m.entries.map Prod.snd

/-- How many entries. -/
def size (m : OrdMap κ ν) : ℕ := m.entries.length

theorem nodup_keys (m : OrdMap κ ν) : m.keys.Nodup := m.nodup

theorem nodup_entries (m : OrdMap κ ν) : m.entries.Nodup := List.Nodup.of_map _ m.nodup

theorem mem_keys {m : OrdMap κ ν} {k : κ} : k ∈ m.keys ↔ ∃ v, (k, v) ∈ m.entries := by
  simp [keys]

/-- Two entries under one key are one. -/
theorem entries_unique {m : OrdMap κ ν} {k : κ} {v v' : ν} (h : (k, v) ∈ m.entries)
    (h' : (k, v') ∈ m.entries) : v = v' :=
  congrArg Prod.snd (List.inj_on_of_nodup_map m.nodup h h' rfl)

/-- A map whose keys are all one key. -/
theorem size_le_one {m : OrdMap κ ν} (h : ∀ k ∈ m.keys, ∀ k' ∈ m.keys, k = k') : m.size ≤ 1 := by
  rw [size, ← List.length_map Prod.fst]
  by_contra hlt
  obtain ⟨i, hi, j, hj, hne⟩ :
      ∃ i, ∃ hi : i < m.keys.length, ∃ j, ∃ hj : j < m.keys.length, i ≠ j :=
    ⟨0, by unfold keys; omega, 1, by unfold keys; omega, Nat.zero_ne_one⟩
  exact hne (m.nodup_keys.getElem_inj_iff.mp (h _ (List.getElem_mem hi) _ (List.getElem_mem hj)))

/-- Change every value. -/
def mapValues (f : κ → ν → ν) (m : OrdMap κ ν) : OrdMap κ ν :=
  ⟨m.entries.map fun e => (e.1, f e.1 e.2), by simpa [Function.comp_def] using m.nodup⟩

@[simp] theorem keys_mapValues (f : κ → ν → ν) (m : OrdMap κ ν) :
    (m.mapValues f).keys = m.keys := by
  simp [keys, mapValues, Function.comp_def]

/-- The same entries in another order. -/
def permute (m : OrdMap κ ν) (es : List (κ × ν)) (h : es.Perm m.entries) : OrdMap κ ν :=
  ⟨es, (h.map Prod.fst).nodup_iff.mpr m.nodup⟩

variable [DecidableEq κ]

/-- The value under a key. -/
def find? (m : OrdMap κ ν) (k : κ) : Option ν := (m.entries.find? fun e => e.1 == k).map Prod.snd

/-- Whether a key is there. -/
def contains (m : OrdMap κ ν) (k : κ) : Bool := (m.find? k).isSome

/-- An entry is found, and only entries are. -/
theorem find?_eq_some {m : OrdMap κ ν} {k : κ} {v : ν} :
    m.find? k = some v ↔ (k, v) ∈ m.entries := by
  unfold find?
  constructor
  · intro h
    obtain ⟨⟨k', v'⟩, he, rfl⟩ := Option.map_eq_some_iff.mp h
    have hk : k' = k := by simpa using List.find?_some he
    exact hk ▸ List.mem_of_find?_eq_some he
  · intro h
    cases hf : m.entries.find? fun e => e.1 == k with
    | none => simpa using List.find?_eq_none.mp hf _ h
    | some e =>
      obtain ⟨k', v'⟩ := e
      have hk : k' = k := by simpa using List.find?_some hf
      subst hk
      rw [entries_unique h (List.mem_of_find?_eq_some hf)]
      rfl

theorem find?_eq_none {m : OrdMap κ ν} {k : κ} : m.find? k = none ↔ k ∉ m.keys := by
  rw [mem_keys, Option.eq_none_iff_forall_ne_some]
  simp [find?_eq_some]

theorem contains_iff {m : OrdMap κ ν} {k : κ} : m.contains k = true ↔ k ∈ m.keys := by
  rw [contains, Option.isSome_iff_ne_none, ne_eq, find?_eq_none, not_not]

theorem mem_keys_of_find? {m : OrdMap κ ν} {k : κ} {v : ν} (h : m.find? k = some v) : k ∈ m.keys :=
  mem_keys.mpr ⟨v, find?_eq_some.mp h⟩

theorem mem_values {m : OrdMap κ ν} {v : ν} : v ∈ m.values ↔ ∃ k, m.find? k = some v := by
  simp [values, find?_eq_some]

@[simp] theorem find?_empty (k : κ) : (empty : OrdMap κ ν).find? k = none := rfl

/-- The order of the entries does not matter. -/
theorem find?_of_perm {m m' : OrdMap κ ν} (h : m'.entries.Perm m.entries) (k : κ) :
    m'.find? k = m.find? k := by
  ext v
  rw [find?_eq_some, find?_eq_some]
  exact h.mem_iff

@[simp] theorem find?_permute (m : OrdMap κ ν) (es : List (κ × ν)) (h : es.Perm m.entries) (k : κ) :
    (m.permute es h).find? k = m.find? k :=
  find?_of_perm h k

@[simp] theorem find?_mapValues (f : κ → ν → ν) (m : OrdMap κ ν) (k : κ) :
    (m.mapValues f).find? k = (m.find? k).map (f k) := by
  ext v
  rw [find?_eq_some]
  simp only [mapValues, List.mem_map, Prod.mk.injEq, Prod.exists, Option.map_eq_some_iff,
    find?_eq_some]
  constructor
  · rintro ⟨k', v', h, rfl, rfl⟩
    exact ⟨v', h, rfl⟩
  · rintro ⟨v', h, rfl⟩
    exact ⟨k, v', h, rfl, rfl⟩

/-- Change the value under a key, if it is there. -/
def modify (m : OrdMap κ ν) (k : κ) (f : ν → ν) : OrdMap κ ν :=
  m.mapValues fun k' v => if k' = k then f v else v

@[simp] theorem find?_modify_self (m : OrdMap κ ν) (k : κ) (f : ν → ν) :
    (m.modify k f).find? k = (m.find? k).map f := by
  simp [modify]

@[simp] theorem find?_modify_of_ne (m : OrdMap κ ν) {k k' : κ} (h : k' ≠ k) (f : ν → ν) :
    (m.modify k f).find? k' = m.find? k' := by
  simp [modify, h]

@[simp] theorem keys_modify (m : OrdMap κ ν) (k : κ) (f : ν → ν) : (m.modify k f).keys = m.keys :=
  keys_mapValues _ _

/-- Put an entry under a key that is not there; if it is, nothing happens. -/
def emplace (m : OrdMap κ ν) (k : κ) (v : ν) : OrdMap κ ν :=
  if h : k ∈ m.keys then m
  else ⟨m.entries ++ [(k, v)], by
    rw [List.map_append, List.nodup_append]
    refine ⟨m.nodup, List.nodup_singleton _, ?_⟩
    rintro a ha b hb rfl
    simp only [List.map_cons, List.map_nil, List.mem_singleton] at hb
    exact h (hb ▸ ha)⟩

theorem emplace_of_mem {m : OrdMap κ ν} {k : κ} (h : k ∈ m.keys) (v : ν) : m.emplace k v = m := by
  simp [emplace, h]

theorem entries_emplace {m : OrdMap κ ν} {k : κ} (h : k ∉ m.keys) (v : ν) :
    (m.emplace k v).entries = m.entries ++ [(k, v)] := by
  simp [emplace, h]

theorem find?_emplace_of_ne (m : OrdMap κ ν) {k k' : κ} (h : k' ≠ k) (v : ν) :
    (m.emplace k v).find? k' = m.find? k' := by
  by_cases hk : k ∈ m.keys
  · rw [emplace_of_mem hk]
  · ext w
    rw [find?_eq_some, find?_eq_some, entries_emplace hk]
    simp [h]

theorem find?_emplace_self {m : OrdMap κ ν} {k : κ} (h : k ∉ m.keys) (v : ν) :
    (m.emplace k v).find? k = some v := by
  rw [find?_eq_some, entries_emplace h]
  simp

/-- Put a value under a key: in place if the key is there, else at the end. -/
def insert (m : OrdMap κ ν) (k : κ) (v : ν) : OrdMap κ ν := (m.modify k fun _ => v).emplace k v

@[simp] theorem find?_insert_self (m : OrdMap κ ν) (k : κ) (v : ν) :
    (m.insert k v).find? k = some v := by
  unfold insert
  by_cases hk : k ∈ m.keys
  · obtain ⟨w, hw⟩ := mem_keys.mp hk
    rw [emplace_of_mem (by simpa using hk), find?_modify_self, find?_eq_some.mpr hw]
    rfl
  · exact find?_emplace_self (by simpa using hk) v

@[simp] theorem find?_insert_of_ne (m : OrdMap κ ν) {k k' : κ} (h : k' ≠ k) (v : ν) :
    (m.insert k v).find? k' = m.find? k' := by
  unfold insert
  rw [find?_emplace_of_ne _ h, find?_modify_of_ne _ h]

theorem find?_insert (m : OrdMap κ ν) (k k' : κ) (v : ν) :
    (m.insert k v).find? k' = if k' = k then some v else m.find? k' := by
  split_ifs with h
  · subst h; simp
  · simp [h]

theorem entries_modify (m : OrdMap κ ν) (k : κ) (f : ν → ν) :
    (m.modify k f).entries = m.entries.map fun e => (e.1, if e.1 = k then f e.2 else e.2) := rfl

/-- Where there is nothing to change. -/
theorem modify_of_not_mem {m : OrdMap κ ν} {k : κ} (h : k ∉ m.keys) (f : ν → ν) :
    m.modify k f = m := by
  apply ext
  rw [entries_modify]
  refine (List.map_congr_left ?_).trans (List.map_id _)
  intro e he
  have hne : e.1 ≠ k := fun hk => h (mem_keys.mpr ⟨e.2, hk ▸ he⟩)
  rw [if_neg hne]
  rfl

/-- The last value that is put under a key counts. -/
theorem insert_insert (m : OrdMap κ ν) (k : κ) (v w : ν) :
    (m.insert k v).insert k w = m.insert k w := by
  have hmem : k ∈ ((m.insert k v).modify k fun _ => w).keys := by
    rw [keys_modify]
    exact mem_keys_of_find? (find?_insert_self m k v)
  rw [insert, emplace_of_mem hmem]
  by_cases hk : k ∈ m.keys
  · have hins (x : ν) : m.insert k x = m.modify k fun _ => x :=
      emplace_of_mem (by rwa [keys_modify]) x
    rw [hins, hins]
    apply ext
    simp only [entries_modify, List.map_map]
    apply List.map_congr_left
    intro e _
    by_cases he : e.1 = k
    · simp only [Function.comp, if_pos he]
    · simp only [Function.comp, if_neg he]
  · have hins (x : ν) : (m.insert k x).entries = m.entries ++ [(k, x)] := by
      rw [insert, modify_of_not_mem hk, entries_emplace hk]
    apply ext
    rw [hins, entries_modify, hins, List.map_append, List.map_singleton, if_pos rfl]
    exact congrArg (fun m' : OrdMap κ ν => m'.entries ++ [(k, w)]) (modify_of_not_mem hk fun _ => w)

/-- A value that is there is replaced. -/
theorem find?_insert_of_found {m : OrdMap κ ν} {k : κ} {v : ν} (h : m.find? k = some v) (f : ν → ν)
    (k' : κ) :
    (m.insert k (f v)).find? k' = (m.find? k').map fun v => if k' = k then f v else v := by
  by_cases hk : k' = k
  · subst hk
    rw [find?_insert_self, h, Option.map_some, if_pos rfl]
  · rw [find?_insert_of_ne _ hk]
    cases m.find? k' with
    | none => rfl
    | some v => rw [Option.map_some, if_neg hk]

theorem mem_keys_insert {m : OrdMap κ ν} {k k' : κ} {v : ν} :
    k' ∈ (m.insert k v).keys ↔ k' = k ∨ k' ∈ m.keys := by
  rw [← contains_iff, ← contains_iff, contains, contains, find?_insert]
  by_cases hk : k' = k
  · rw [if_pos hk]
    exact iff_of_true rfl (.inl hk)
  · rw [if_neg hk]
    exact (or_iff_right hk).symm

/-- Take a key out. -/
def erase (m : OrdMap κ ν) (k : κ) : OrdMap κ ν :=
  ⟨m.entries.filter fun e => e.1 != k, m.nodup.sublist (List.filter_sublist.map Prod.fst)⟩

@[simp] theorem find?_erase_self (m : OrdMap κ ν) (k : κ) : (m.erase k).find? k = none := by
  rw [find?_eq_none, mem_keys]
  simp [erase]

@[simp] theorem find?_erase_of_ne (m : OrdMap κ ν) {k k' : κ} (h : k' ≠ k) :
    (m.erase k).find? k' = m.find? k' := by
  ext v
  rw [find?_eq_some, find?_eq_some]
  simp [erase, h]

theorem find?_erase (m : OrdMap κ ν) (k k' : κ) :
    (m.erase k).find? k' = if k' = k then none else m.find? k' := by
  split_ifs with h
  · subst h; simp
  · simp [h]

theorem mem_keys_erase {m : OrdMap κ ν} {k k' : κ} :
    k' ∈ (m.erase k).keys ↔ k' ∈ m.keys ∧ k' ≠ k := by
  rw [← contains_iff, ← contains_iff, contains, contains, find?_erase]
  by_cases hk : k' = k
  · rw [if_pos hk]
    exact iff_of_false Bool.false_ne_true fun h => h.2 hk
  · rw [if_neg hk]
    exact (and_iff_left hk).symm

@[simp] theorem erase_erase (m : OrdMap κ ν) (k : κ) : (m.erase k).erase k = m.erase k := by
  ext1
  simp [erase, List.filter_filter]

end OrdMap

end ThreadLink
