import Mathlib.Data.List.Sort
import Mathlib.Data.String.Basic

/-!
# Maps kept as strictly sorted association lists

A finite map is a list of entries whose keys increase strictly. The order is a
field of the structure, so iteration visits the keys once each and in order,
and two maps with the same entries are equal.
-/

namespace Lib

open List

variable {κ ν : Type} [LinearOrder κ]

/-- A finite map whose entries are strictly sorted by key. -/
structure SortedMap (κ ν : Type) [LinearOrder κ] where
  entries : List (κ × ν)
  sorted : (entries.map Prod.fst).Pairwise (· < ·)
deriving DecidableEq

namespace SortedMap

/-- The entry list after one insertion; an entry with the same key is replaced. -/
def insertEntry (key : κ) (value : ν) : List (κ × ν) → List (κ × ν)
  | [] => [(key, value)]
  | entry :: rest =>
    if key < entry.1 then (key, value) :: entry :: rest
    else if key = entry.1 then (key, value) :: rest
    else entry :: insertEntry key value rest

variable {entries : List (κ × ν)} {value : ν}

theorem mem_keys_insertEntry {key k : κ} (hmem : k ∈ (insertEntry key value entries).map Prod.fst) :
    k = key ∨ k ∈ entries.map Prod.fst := by
  induction entries with
  | nil => simpa [insertEntry] using hmem
  | cons entry rest ih =>
    unfold insertEntry at hmem
    split_ifs at hmem with hlt heq
    · simpa using hmem
    · simp only [map_cons, mem_cons] at hmem ⊢
      tauto
    · simp only [map_cons, mem_cons] at hmem ⊢
      rcases hmem with rfl | hmem
      · exact .inr (.inl rfl)
      · rcases ih hmem with rfl | hrest
        · exact .inl rfl
        · exact .inr (.inr hrest)

theorem insertEntry_sorted (key : κ) (value : ν) (hsorted : (entries.map Prod.fst).Pairwise (· < ·))
    : ((insertEntry key value entries).map Prod.fst).Pairwise (· < ·) := by
  induction entries with
  | nil => simp [insertEntry]
  | cons entry rest ih =>
    rw [map_cons, pairwise_cons] at hsorted
    obtain ⟨hhead, htail⟩ := hsorted
    unfold insertEntry
    split_ifs with hlt heq
    · simp only [map_cons, pairwise_cons, mem_cons, forall_eq_or_imp]
      exact ⟨⟨hlt, fun k hk => hlt.trans (hhead k hk)⟩, hhead, htail⟩
    · rw [map_cons, pairwise_cons]
      exact ⟨fun k hk => heq ▸ hhead k hk, htail⟩
    · rw [map_cons, pairwise_cons]
      refine ⟨fun k hk => ?_, ih htail⟩
      rcases mem_keys_insertEntry hk with rfl | hk
      · exact lt_of_le_of_ne (not_lt.mp hlt) (Ne.symm heq)
      · exact hhead k hk

/-- The map without entries. -/
def empty : SortedMap κ ν where
  entries := []
  sorted := List.Pairwise.nil

/-- The value stored under a key. -/
def get? (map : SortedMap κ ν) (key : κ) : Option ν :=
  (map.entries.find? fun entry => entry.1 = key).map Prod.snd

/-- Store a value, replacing the one stored under the same key. -/
def insert (map : SortedMap κ ν) (key : κ) (value : ν) : SortedMap κ ν where
  entries := insertEntry key value map.entries
  sorted := insertEntry_sorted key value map.sorted

/-- Store a value only when its key is absent. -/
def insertIfAbsent (map : SortedMap κ ν) (key : κ) (value : ν) : SortedMap κ ν :=
  match map.get? key with
  | some _ => map
  | none => map.insert key value

/-- Keep the entries that satisfy a predicate. -/
def retain (map : SortedMap κ ν) (keep : κ → ν → Bool) : SortedMap κ ν where
  entries := map.entries.filter fun entry => keep entry.1 entry.2
  sorted := map.sorted.sublist (List.Sublist.map _ filter_sublist)

/-- Remove the entry of a key. -/
def erase (map : SortedMap κ ν) (key : κ) : SortedMap κ ν := map.retain fun k _ => k ≠ key

/-- The stored values in key order. -/
def values (map : SortedMap κ ν) : List ν := map.entries.map Prod.snd

/-- The stored keys in order. -/
def keys (map : SortedMap κ ν) : List κ := map.entries.map Prod.fst

@[simp] theorem get?_empty (key : κ) : (empty : SortedMap κ ν).get? key = none := rfl

theorem find?_insertEntry_self (key : κ) (value : ν) (entries : List (κ × ν)) :
    (insertEntry key value entries).find? (fun entry => entry.1 = key) =
      some (key, value) := by
  induction entries with
  | nil => simp [insertEntry]
  | cons entry rest ih =>
    unfold insertEntry
    split_ifs with hlt heq
    · simp
    · simp
    · rw [find?_cons_of_neg (by simpa using Ne.symm heq)]
      exact ih

/-- An insertion does not show among keys it is not one of. -/
theorem filter_insertEntry {key : κ} {p : κ → Bool} (hkey : p key = false) (value : ν)
    (entries : List (κ × ν)) :
    (insertEntry key value entries).filter (fun entry => p entry.1) =
      entries.filter fun entry => p entry.1 := by
  induction entries with
  | nil => simp [insertEntry, hkey]
  | cons entry rest ih =>
    unfold insertEntry
    split_ifs with hlt heq
    · rw [filter_cons_of_neg (by simp [hkey])]
    · rw [filter_cons_of_neg (by simp [hkey]),
        filter_cons_of_neg (by simp [← heq, hkey])]
    · rw [filter_cons, filter_cons, ih]

theorem find?_insertEntry_of_ne {key k : κ} (hne : k ≠ key) (value : ν)
    (entries : List (κ × ν)) :
    (insertEntry key value entries).find? (fun entry => entry.1 = k) =
      entries.find? fun entry => entry.1 = k := by
  rw [← head?_filter, ← head?_filter, filter_insertEntry (p := (· = k)) (by simp [hne.symm])]

@[simp] theorem get?_insert_self (map : SortedMap κ ν) (key : κ) (value : ν) :
    (map.insert key value).get? key = some value := by
  simp only [get?, insert, find?_insertEntry_self, Option.map_some]

theorem get?_insert_of_ne (map : SortedMap κ ν) {key k : κ} (hne : k ≠ key) (value : ν) :
    (map.insert key value).get? k = map.get? k := by
  simp only [get?, insert, find?_insertEntry_of_ne hne]

theorem get?_insert (map : SortedMap κ ν) (key k : κ) (value : ν) :
    (map.insert key value).get? k = if k = key then some value else map.get? k := by
  split
  next heq => rw [heq, get?_insert_self]
  next hne => exact get?_insert_of_ne map hne value

theorem get?_erase (map : SortedMap κ ν) (key k : κ) :
    (map.erase key).get? k = if k = key then none else map.get? k := by
  simp only [get?, erase, retain, find?_filter]
  split
  next heq =>
    rw [heq, find?_eq_none.mpr (by simp), Option.map_none]
  next hne =>
    congr 2
    funext entry
    by_cases hk : entry.1 = k <;> simp [hk, hne]

variable {map : SortedMap κ ν} {key : κ}

theorem mem_entries_of_get? (hget : map.get? key = some value) : (key, value) ∈ map.entries := by
  obtain ⟨entry, hfind, rfl⟩ := Option.map_eq_some_iff.mp hget
  have hkey : entry.1 = key := by simpa using find?_some hfind
  rw [← hkey]
  exact mem_of_find?_eq_some hfind

theorem mem_values_of_get? (hget : map.get? key = some value) : value ∈ map.values :=
  mem_map_of_mem (mem_entries_of_get? hget)

theorem mem_keys_of_get? (hget : map.get? key = some value) : key ∈ map.keys :=
  mem_map_of_mem (mem_entries_of_get? hget)

theorem eq_empty_of_values_isEmpty (hempty : map.values.isEmpty = true) : map = empty := by
  obtain ⟨entries, sorted⟩ := map
  have hnil : entries = [] := by simpa [values] using hempty
  subst hnil
  rfl

theorem get?_of_mem_keys (hkey : key ∈ map.keys) :
    ∃ value, (key, value) ∈ map.entries ∧ map.get? key = some value := by
  obtain ⟨entry, hentry, rfl⟩ := mem_map.mp hkey
  obtain ⟨found, hfound⟩ := Option.isSome_iff_exists.mp
    (find?_isSome (p := fun other => decide (other.1 = entry.1)).mpr ⟨entry, hentry, by simp⟩)
  have hsame : found.1 = entry.1 := by simpa using find?_some hfound
  refine ⟨found.2, ?_, by rw [get?, hfound, Option.map_some]⟩
  rw [← hsame]
  exact mem_of_find?_eq_some hfound

theorem filter_entries_erase {p : κ → Bool} (hkey : p key = false) (map : SortedMap κ ν) :
    (map.erase key).entries.filter (fun entry => p entry.1) =
      map.entries.filter fun entry => p entry.1 := by
  simp only [erase, retain, filter_filter]
  refine filter_congr fun entry _ => ?_
  by_cases heq : entry.1 = key
  · simp [heq, hkey]
  · simp [heq]

theorem get?_of_mem_entries (hmem : (key, value) ∈ map.entries) : map.get? key = some value := by
  obtain ⟨found, hfound, hget⟩ :=
    get?_of_mem_keys (mem_map_of_mem (f := Prod.fst) hmem : key ∈ map.keys)
  have hnodup : (map.entries.map Prod.fst).Nodup := map.sorted.imp fun hlt => ne_of_lt hlt
  have hsame := inj_on_of_nodup_map hnodup hmem hfound rfl
  rw [hget, (Prod.mk.inj hsame).2]

/-- An insertion guarded by absence never replaces a stored value. -/
theorem get?_insertIfAbsent (map : SortedMap κ ν) (key k : κ) (value : ν) :
    (map.insertIfAbsent key value).get? k =
      if k = key then some ((map.get? key).getD value) else map.get? k := by
  unfold insertIfAbsent
  split
  next stored hstored =>
    split
    next heq => rw [heq, hstored, Option.getD_some]
    · rfl
  next hnone => rw [get?_insert, hnone, Option.getD_none]

/-- What a map holds after entries were stored is one of them, or was there before. -/
theorem mem_of_get?_foldl_insert
    (hget : (entries.foldl (fun acc entry => acc.insert entry.1 entry.2) map).get? key = some value)
    : (key, value) ∈ entries ∨ map.get? key = some value := by
  induction entries generalizing map with
  | nil => exact .inr hget
  | cons entry rest ih =>
    rcases ih hget with hmem | hold
    · exact .inl (mem_cons_of_mem _ hmem)
    · rw [get?_insert] at hold
      split at hold
      next heq =>
        obtain rfl : entry.2 = value := Option.some.inj hold
        exact .inl (heq ▸ mem_cons_self)
      · exact .inr hold

/-- Storing all entries of another map. -/
def extend (map other : SortedMap κ ν) : SortedMap κ ν :=
  other.entries.foldl (fun acc entry => acc.insert entry.1 entry.2) map

/-- A fold over entries with distinct keys, each of which changes what its own key holds. -/
theorem get?_foldl {step : SortedMap κ ν → κ × ν → SortedMap κ ν} {f : Option ν → ν → Option ν}
    (hstep : ∀ map entry key, (step map entry).get? key =
      if key = entry.1 then f (map.get? key) entry.2 else map.get? key)
    (hnodup : (entries.map Prod.fst).Nodup) (map : SortedMap κ ν) (key : κ) :
    (entries.foldl step map).get? key =
      ((entries.find? fun entry => entry.1 = key).map Prod.snd).elim (map.get? key)
        (f (map.get? key)) := by
  induction entries generalizing map with
  | nil => rfl
  | cons entry rest ih =>
    rw [map_cons, nodup_cons] at hnodup
    rw [foldl_cons, ih hnodup.2, hstep]
    by_cases hkey : entry.1 = key
    · have hrest : rest.find? (fun entry => entry.1 = key) = none := by
        refine find?_eq_none.mpr fun other hother hsame => hnodup.1 ?_
        exact mem_map.mpr ⟨other, hother, (of_decide_eq_true hsame).trans hkey.symm⟩
      rw [hrest, if_pos hkey.symm, find?_cons_of_pos (by simpa using hkey)]
      rfl
    · rw [if_neg (Ne.symm hkey), find?_cons_of_neg (by simpa using hkey)]

theorem get?_extend (map other : SortedMap κ ν) (key : κ) :
    (map.extend other).get? key = (other.get? key).or (map.get? key) := by
  have hnodup := other.sorted.imp fun hlt => ne_of_lt hlt
  rw [extend, get?_foldl (f := fun _ value => some value)
    (fun map entry key => get?_insert map entry.1 key entry.2) hnodup, ← get?]
  cases other.get? key <;> rfl

/-- A map extended by one with other keys holds what either holds. -/
theorem get?_extend_eq_some {map other : SortedMap κ ν}
    (hdisjoint : ∀ key, (other.get? key).isSome = true → map.get? key = none) :
    (map.extend other).get? key = some value ↔
      map.get? key = some value ∨ other.get? key = some value := by
  rw [get?_extend]
  cases hother : other.get? key with
  | none => simp
  | some stored => simp [hdisjoint key (by rw [hother]; rfl)]

/-- Storing one value for each key of a list. -/
def insertAll (map : SortedMap κ ν) (value : κ → ν) (names : List κ) : SortedMap κ ν :=
  names.foldl (fun acc name => acc.insert name (value name)) map

theorem get?_insertAll (map : SortedMap κ ν) (value : κ → ν) (names : List κ) (k : κ) :
    (map.insertAll value names).get? k = if k ∈ names then some (value k) else map.get? k := by
  induction names generalizing map with
  | nil => simp [insertAll]
  | cons name rest ih =>
    have hstep := ih (map.insert name (value name))
    simp only [insertAll, foldl_cons, mem_cons] at hstep ⊢
    rw [hstep, get?_insert]
    by_cases hrest : k ∈ rest <;> by_cases heq : k = name <;> simp [hrest, heq]

/-- Storing one value for each absent key of a list. -/
def insertAllIfAbsent (map : SortedMap κ ν) (value : κ → ν) (names : List κ) : SortedMap κ ν :=
  names.foldl (fun acc name => acc.insertIfAbsent name (value name)) map

theorem get?_insertAllIfAbsent (map : SortedMap κ ν) (value : κ → ν) (names : List κ) (k : κ) :
    (map.insertAllIfAbsent value names).get? k =
      if k ∈ names then some ((map.get? k).getD (value k)) else map.get? k := by
  induction names generalizing map with
  | nil => simp [insertAllIfAbsent]
  | cons name rest ih =>
    have hstep := ih (map.insertIfAbsent name (value name))
    simp only [insertAllIfAbsent, foldl_cons, mem_cons] at hstep ⊢
    rw [hstep, get?_insertIfAbsent]
    by_cases hrest : k ∈ rest <;> by_cases heq : k = name <;> simp [hrest, heq]

/-- The entries are what the keys hold. -/
theorem mem_entries_iff_get? : (key, value) ∈ map.entries ↔ map.get? key = some value :=
  ⟨get?_of_mem_entries, mem_entries_of_get?⟩

/-- Maps that hold the same values under the same keys are equal. -/
@[ext] theorem ext_get? {left right : SortedMap κ ν}
    (hget : ∀ key, left.get? key = right.get? key) : left = right := by
  have hperm : left.entries.Perm right.entries := by
    refine (perm_ext_iff_of_nodup ?_ ?_).mpr ?_
    · exact Nodup.of_map Prod.fst (left.sorted.imp fun hlt => ne_of_lt hlt)
    · exact Nodup.of_map Prod.fst (right.sorted.imp fun hlt => ne_of_lt hlt)
    · rintro ⟨key, value⟩
      rw [mem_entries_iff_get?, mem_entries_iff_get?, hget]
  have hleft : left.entries.Pairwise fun first second => first.1 < second.1 :=
    pairwise_map.mp left.sorted
  have hright : right.entries.Pairwise fun first second => first.1 < second.1 :=
    pairwise_map.mp right.sorted
  have heq : left.entries = right.entries := by
    refine hperm.eq_of_pairwise ?_ hleft hright
    intro first second _ _ hlt hgt
    exact absurd (hlt.trans hgt) (lt_irrefl _)
  cases left
  cases right
  cases heq
  rfl

theorem not_mem_keys_of_get? (hnone : map.get? key = none) : key ∉ map.keys := by
  intro hkey
  obtain ⟨value, _, hvalue⟩ := get?_of_mem_keys hkey
  cases hnone.symm.trans hvalue

/-- The entry with the greatest key. -/
def last? (map : SortedMap κ ν) : Option (κ × ν) := map.entries.getLast?

theorem le_of_last? {key k : κ} {value v : ν} (hlast : map.last? = some (key, value))
    (hget : map.get? k = some v) : k ≤ key := by
  obtain ⟨front, hentries⟩ := getLast?_eq_some_iff.mp hlast
  have hmem := mem_entries_of_get? hget
  rw [hentries, mem_append, mem_singleton] at hmem
  rcases hmem with hfront | heq
  · have hsorted := map.sorted
    rw [hentries, map_append, pairwise_append] at hsorted
    exact (hsorted.2.2 k (mem_map_of_mem hfront) key (by simp)).le
  · exact (congrArg Prod.fst heq).le

theorem length_insertEntry (key : κ) (value : ν) (entries : List (κ × ν))
    (hsorted : (entries.map Prod.fst).Pairwise (· < ·)) :
    (insertEntry key value entries).length =
      if key ∈ entries.map Prod.fst then entries.length else entries.length + 1 := by
  induction entries with
  | nil => simp [insertEntry]
  | cons entry rest ih =>
    rw [map_cons, pairwise_cons] at hsorted
    have hrest := ih hsorted.2
    have hbelow : key < entry.1 → key ∉ rest.map Prod.fst :=
      fun hlt hmem => absurd (hsorted.1 key hmem) (not_lt_of_gt hlt)
    unfold insertEntry
    split_ifs with hlt heq <;> grind

theorem length_insert (map : SortedMap κ ν) (key : κ) (value : ν) :
    (map.insert key value).entries.length =
      if (map.get? key).isSome then map.entries.length else map.entries.length + 1 := by
  have hlength := length_insertEntry key value map.entries map.sorted
  rw [insert, hlength]
  cases hget : map.get? key with
  | none => exact if_neg (not_mem_keys_of_get? hget)
  | some stored => exact if_pos (mem_keys_of_get? hget)

/-- Storing the entries of another map, each one only where the value it meets gives way. -/
def mergeWhen (yields : ν → ν → Bool) (map other : SortedMap κ ν) : SortedMap κ ν :=
  other.entries.foldl
    (fun acc entry =>
      if (acc.get? entry.1).all fun old => yields old entry.2 then acc.insert entry.1 entry.2
      else acc)
    map

theorem get?_mergeWhen (yields : ν → ν → Bool) (map other : SortedMap κ ν) (key : κ) :
    (map.mergeWhen yields other).get? key =
      match other.get? key with
      | some value => if (map.get? key).all fun old => yields old value then some value
          else map.get? key
      | none => map.get? key := by
  have hnodup := other.sorted.imp fun hlt => ne_of_lt hlt
  rw [mergeWhen, get?_foldl (f := fun old value =>
    if old.all fun old => yields old value then some value else old) ?_ hnodup, ← get?]
  · cases other.get? key <;> rfl
  · intro map entry key
    by_cases hkey : key = entry.1
    · subst hkey
      split <;> simp_all
    · split <;> simp [hkey, get?_insert_of_ne]

end SortedMap

end Lib
