import Mathlib.Data.List.FinRange
import Mathlib.Data.List.Nodup

/-!
Hash tables with chained buckets.

Owns the table as a structure that carries its invariant (each entry stands in
the bucket of its key, and no chain holds a key twice), the insertion of a
fresh entry, the change of an entry in place, and what lookup and enumeration
return after each.

Does not own a hash function, nor any resizing.
-/

/-- Chains of entries `ε`, keyed by `key`, over `count` buckets. -/
structure ChainedTable {κ ε : Type} {count : Nat} (key : ε → κ) (bucket : κ → Fin count) where
  chains : Fin count → List ε
  placed : ∀ index, ∀ entry ∈ chains index, bucket (key entry) = index
  unique : ∀ index, ((chains index).map key).Nodup

namespace ChainedTable

variable {κ ε : Type} {count : Nat} {key : ε → κ} {bucket : κ → Fin count} [DecidableEq κ]

/-- The table without entries. -/
def empty : ChainedTable key bucket where
  chains _ := []
  placed _ _ member := absurd member List.not_mem_nil
  unique _ := List.nodup_nil

/-- The entry under a key: the first match in its chain. -/
def find (table : ChainedTable key bucket) (k : κ) : Option ε :=
  (table.chains (bucket k)).find? fun entry => key entry = k

/-- All entries, bucket by bucket. -/
def entries (table : ChainedTable key bucket) : List ε := (List.finRange count).flatMap table.chains

/-! ## Lookup -/

@[simp] theorem find_empty (k : κ) : (empty : ChainedTable key bucket).find k = none := rfl

theorem key_of_find {table : ChainedTable key bucket} {k : κ} {entry : ε}
    (found : table.find k = some entry) : key entry = k := by
  simpa using List.find?_some found

theorem mem_chain_of_find {table : ChainedTable key bucket} {k : κ} {entry : ε}
    (found : table.find k = some entry) : entry ∈ table.chains (bucket k) :=
  List.mem_of_find?_eq_some found

/-- In a list without repeated keys, a member is the first match of its key. -/
theorem find?_key_of_mem {chain : List ε} (unique : (chain.map key).Nodup) {entry : ε}
    (member : entry ∈ chain) : (chain.find? fun other => key other = key entry) = some entry := by
  induction chain with
  | nil => contradiction
  | cons head tail inductionHypothesis =>
      rw [List.map_cons, List.nodup_cons] at unique
      rcases List.mem_cons.mp member with rfl | inTail
      · simp
      · have notHead : key head ≠ key entry :=
          fun equal => unique.1 (equal ▸ List.mem_map_of_mem inTail)
        rw [List.find?_cons_of_neg (by simpa using notHead)]
        exact inductionHypothesis unique.2 inTail

theorem find_of_mem_chain {table : ChainedTable key bucket} {index : Fin count} {entry : ε}
    (member : entry ∈ table.chains index) : table.find (key entry) = some entry := by
  have home := table.placed index entry member
  rw [find, home]
  exact find?_key_of_mem (table.unique index) member

/-- The entries are exactly what lookup returns. -/
theorem mem_entries_iff {table : ChainedTable key bucket} {entry : ε} :
    entry ∈ table.entries ↔ table.find (key entry) = some entry := by
  constructor
  · intro member
    obtain ⟨index, -, inChain⟩ := List.mem_flatMap.mp member
    exact find_of_mem_chain inChain
  · intro found
    exact List.mem_flatMap.mpr ⟨bucket (key entry), List.mem_finRange _, mem_chain_of_find found⟩

omit [DecidableEq κ] in
/-- No two entries of the table have one key. -/
theorem nodup_keys (table : ChainedTable key bucket) : (table.entries.map key).Nodup := by
  rw [entries, List.map_flatMap, List.nodup_flatMap]
  refine ⟨fun index _ => table.unique index, ?_⟩
  refine (List.nodup_finRange count).imp ?_
  intro first second different k inFirst inSecond
  obtain ⟨one, oneMember, rfl⟩ := List.mem_map.mp inFirst
  obtain ⟨two, twoMember, equal⟩ := List.mem_map.mp inSecond
  apply different
  rw [← table.placed first one oneMember, ← table.placed second two twoMember, equal]

/-- Two tables have as many entries as they have keys. -/
theorem length_entries_eq {first second : ChainedTable key bucket} {keys : List κ}
    (distinct : keys.Nodup) (split : ∀ k, (second.find k).isSome ↔ k ∈ keys ∨ (first.find k).isSome)
    (fresh : ∀ k ∈ keys, first.find k = none) :
    second.entries.length = keys.length + first.entries.length := by
  have inKeys : ∀ (table : ChainedTable key bucket) (k : κ),
      k ∈ table.entries.map key ↔ (table.find k).isSome := by
    intro table k
    rw [List.mem_map, Option.isSome_iff_exists]
    constructor
    · rintro ⟨entry, member, rfl⟩
      exact ⟨entry, mem_entries_iff.mp member⟩
    · rintro ⟨entry, found⟩
      have same := key_of_find found
      rw [← same] at found
      exact ⟨entry, mem_entries_iff.mpr found, same⟩
  have permuted : (second.entries.map key).Perm (keys ++ first.entries.map key) := by
    refine (List.perm_ext_iff_of_nodup (nodup_keys second) ?_).mpr fun k => ?_
    · refine distinct.append (nodup_keys first) fun k inNew inFirst => ?_
      rw [inKeys, fresh k inNew] at inFirst
      contradiction
    · rw [inKeys, split, List.mem_append, inKeys]
  have lengths := permuted.length_eq
  rwa [List.length_append, List.length_map, List.length_map] at lengths

/-! ## A fresh entry -/

/-- Put an entry with a new key at the head of its chain. -/
def push (table : ChainedTable key bucket) (entry : ε) (fresh : table.find (key entry) = none) :
    ChainedTable key bucket where
  chains index :=
    if index = bucket (key entry) then entry :: table.chains index else table.chains index
  placed index other member := by
    split at member
    · next home =>
        rcases List.mem_cons.mp member with rfl | inChain
        · exact home.symm
        · exact table.placed index other inChain
    · exact table.placed index other member
  unique index := by
    split
    · next home =>
        rw [List.map_cons, List.nodup_cons]
        refine ⟨?_, table.unique index⟩
        intro repeated
        obtain ⟨other, member, equal⟩ := List.mem_map.mp repeated
        rw [find, ← home] at fresh
        have noMatch := List.find?_eq_none.mp fresh other member
        simp [equal] at noMatch
    · exact table.unique index

theorem find_push {table : ChainedTable key bucket} {entry : ε}
    (fresh : table.find (key entry) = none) (k : κ) :
    (table.push entry fresh).find k = if k = key entry then some entry else table.find k := by
  unfold find push
  dsimp only
  by_cases same : k = key entry
  · rw [if_pos same, if_pos (by rw [same]), List.find?_cons_of_pos (by simp [same])]
  · rw [if_neg same]
    split
    · rw [List.find?_cons_of_neg (by simpa using fun equal => same equal.symm)]
    · rfl

/-- A fresh entry is one more. -/
theorem length_entries_push {table : ChainedTable key bucket} {entry : ε}
    (fresh : table.find (key entry) = none) :
    (table.push entry fresh).entries.length = table.entries.length + 1 := by
  rw [@length_entries_eq _ _ _ _ _ _ table (table.push entry fresh) [key entry]
    (List.nodup_singleton _) (fun k => ?_) (fun k member => ?_), List.length_singleton, Nat.add_comm]
  · rw [find_push, List.mem_singleton]
    by_cases same : k = key entry <;> simp [same]
  · rwa [List.mem_singleton.mp member]

/-! ## A changed entry -/

/-- Apply a change to the first entry of a chain under a key. -/
def modifyChain (k : κ) (change : ε → ε) : List ε → List ε
  | [] => []
  | entry :: chain =>
      if key entry = k then change entry :: chain else entry :: modifyChain k change chain

theorem map_key_modifyChain {change : ε → ε} (keeps : ∀ entry, key (change entry) = key entry)
    (k : κ) (chain : List ε) : (@modifyChain κ ε key _ k change chain).map key = chain.map key := by
  induction chain with
  | nil => rfl
  | cons entry chain inductionHypothesis =>
      unfold modifyChain
      split
      · rw [List.map_cons, List.map_cons, keeps]
      · rw [List.map_cons, List.map_cons, inductionHypothesis]

/-- Lookup by key only depends on the keys up to the match. -/
theorem find?_modifyChain {change : ε → ε} (keeps : ∀ entry, key (change entry) = key entry)
    (k other : κ) (chain : List ε) :
    ((@modifyChain κ ε key _ k change chain).find? fun entry => key entry = other) =
      if other = k then (chain.find? fun entry => key entry = k).map change
      else chain.find? fun entry => key entry = other := by
  induction chain with
  | nil => simp [modifyChain]
  | cons entry chain inductionHypothesis =>
      unfold modifyChain
      by_cases here : key entry = k
      · by_cases same : other = k
        · simp [here, same, keeps]
        · have differs : ¬ k = other := fun equal => same equal.symm
          simp [here, same, keeps, differs]
      · by_cases same : other = k
        · subst same
          simp [here, inductionHypothesis]
        · by_cases found : key entry = other
          · simp [same, found]
          · simp [here, same, found, inductionHypothesis]

/-- Change the entry under a key, without changing any key. -/
def modify (table : ChainedTable key bucket) (k : κ) (change : ε → ε)
    (keeps : ∀ entry, key (change entry) = key entry) : ChainedTable key bucket where
  chains index :=
    if index = bucket k then @modifyChain κ ε key _ k change (table.chains index)
    else table.chains index
  placed index other member := by
    split at member
    · have inKeys : key other ∈ (table.chains index).map key := by
        rw [← map_key_modifyChain keeps k]
        exact List.mem_map_of_mem member
      obtain ⟨original, originalMember, equal⟩ := List.mem_map.mp inKeys
      rw [← equal]
      exact table.placed index original originalMember
    · exact table.placed index other member
  unique index := by
    split
    · rw [map_key_modifyChain keeps]
      exact table.unique index
    · exact table.unique index

theorem find_modify {table : ChainedTable key bucket} {k : κ} {change : ε → ε}
    (keeps : ∀ entry, key (change entry) = key entry) (other : κ) :
    (table.modify k change keeps).find other =
      if other = k then (table.find k).map change else table.find other := by
  unfold find modify
  dsimp only
  by_cases home : bucket other = bucket k
  · rw [if_pos home, find?_modifyChain keeps, home]
  · rw [if_neg home, if_neg]
    rintro rfl
    exact home rfl

/-- A changed entry is as many as before. -/
theorem length_entries_modify {table : ChainedTable key bucket} {k : κ} {change : ε → ε}
    (keeps : ∀ entry, key (change entry) = key entry) :
    (table.modify k change keeps).entries.length = table.entries.length := by
  rw [@length_entries_eq _ _ _ _ _ _ table (table.modify k change keeps) [] List.nodup_nil
    (fun other => ?_) (fun other member => absurd member List.not_mem_nil), List.length_nil,
    Nat.zero_add]
  rw [find_modify]
  by_cases same : other = k <;> simp [same]

end ChainedTable
