import Shipyard.Lib.SortedMap

/-!
# Layered trees of tables

A value is a leaf or a table of values whose keys increase strictly. One value is
laid over another: tables are merged key by key, and anything else replaces what
lies below. What stands at a path after the merge depends only on what stands at
that path in the two layers, unless the upper layer has a leaf on the way.
-/

namespace Lib

open List

/-- A leaf, or a table of values. -/
inductive Tree (κ α : Type) where
  | leaf (value : α)
  | table (entries : List (κ × Tree κ α))

namespace Tree

variable {κ α : Type} [LinearOrder κ]

/-- The value of a key in the entries of a table. -/
def find (entries : List (κ × Tree κ α)) (key : κ) : Option (Tree κ α) :=
  (entries.find? fun entry => entry.1 = key).map Prod.snd

/-- The value at a path of keys. -/
def pointer : List κ → Option (Tree κ α) → Option (Tree κ α)
  | [], value => value
  | key :: path, some (.table entries) => pointer path (find entries key)
  | _ :: _, _ => none

/-- A leaf stands where the path needs a table. -/
def blocks : List κ → Option (Tree κ α) → Bool
  | key :: path, some (.table entries) => blocks path (find entries key)
  | _ :: _, some (.leaf _) => true
  | _, _ => false

mutual

/-- The keys of a table and of the tables in it increase. -/
def ordered : Tree κ α → Bool
  | .leaf _ => true
  | .table entries =>
    decide ((entries.map Prod.fst).Pairwise (· < ·)) && orderedEntries entries

def orderedEntries : List (κ × Tree κ α) → Bool
  | [] => true
  | (_, value) :: rest => ordered value && orderedEntries rest

end

mutual

/-- One value laid over what may stand below it. -/
def onto : Option (Tree κ α) → Tree κ α → Tree κ α
  | some (.table base), .table overlay => .table (ontoEntries base overlay)
  | _, value => value

/-- The entries of one table laid over those of another. -/
def ontoEntries : List (κ × Tree κ α) → List (κ × Tree κ α) → List (κ × Tree κ α)
  | base, [] => base
  | base, (key, value) :: rest =>
    ontoEntries (SortedMap.insertEntry key (onto (find base key) value) base) rest

end

/-- Remove the entry of a key. -/
def eraseEntry (key : κ) (entries : List (κ × Tree κ α)) : List (κ × Tree κ α) :=
  entries.filter fun entry => entry.1 ≠ key

/-- Remove a key from the table below a path of tables. Where there is no table
on the way, nothing is removed. -/
def removeAt (leaf : κ) : List κ → List (κ × Tree κ α) → List (κ × Tree κ α)
  | [], entries => eraseEntry leaf entries
  | part :: parents, entries =>
    match find entries part with
    | some (.table next) =>
      SortedMap.insertEntry part (.table (removeAt leaf parents next)) entries
    | _ => entries

/-! ## Reading after one change -/

theorem find_insertEntry (entries : List (κ × Tree κ α)) (key k : κ) (value : Tree κ α) :
    find (SortedMap.insertEntry key value entries) k =
      if k = key then some value else find entries k := by
  unfold find
  split
  next heq => rw [heq, SortedMap.find?_insertEntry_self, Option.map_some]
  next hne => rw [SortedMap.find?_insertEntry_of_ne hne]

theorem find_eraseEntry (entries : List (κ × Tree κ α)) (key k : κ) :
    find (eraseEntry key entries) k = if k = key then none else find entries k := by
  unfold find eraseEntry
  rw [find?_filter]
  split
  next heq => rw [heq, find?_eq_none.mpr (by simp), Option.map_none]
  next hne =>
    congr 2
    funext entry
    by_cases hk : entry.1 = k <;> simp [hk, hne]

@[simp] theorem pointer_none (path : List κ) : pointer path (none : Option (Tree κ α)) = none := by
  cases path <;> rfl

@[simp] theorem blocks_none (path : List κ) : blocks path (none : Option (Tree κ α)) = false := by
  cases path <;> rfl

variable (leaf : κ) (parents : List κ) {path : List κ} {key : κ}

theorem pointer_of_blocks {value : Option (Tree κ α)} (hblocks : blocks path value = true) :
    pointer path value = none := by
  induction path generalizing value with
  | nil => cases hblocks
  | cons key path ih =>
    match value with
    | none | some (.leaf _) => rfl
    | some (.table entries) => exact ih hblocks

/-! ## Order -/

variable {entries : List (κ × Tree κ α)}

theorem orderedEntries_iff :
    orderedEntries entries = true ↔ ∀ entry ∈ entries, ordered entry.2 = true := by
  induction entries with
  | nil => simp [orderedEntries]
  | cons entry rest ih =>
    obtain ⟨key, value⟩ := entry
    rw [orderedEntries, Bool.and_eq_true, ih, forall_mem_cons]

theorem ordered_table_iff :
    ordered (.table entries) = true ↔
      (entries.map Prod.fst).Pairwise (· < ·) ∧ ∀ entry ∈ entries, ordered entry.2 = true := by
  rw [ordered, Bool.and_eq_true, decide_eq_true_eq, orderedEntries_iff]

variable {value : Tree κ α}

theorem ordered_of_find (hordered : ordered (.table entries) = true)
    (hfind : find entries key = some value) : ordered value = true := by
  obtain ⟨entry, hentry, rfl⟩ := Option.map_eq_some_iff.mp hfind
  exact (ordered_table_iff.mp hordered).2 entry (mem_of_find?_eq_some hentry)

theorem mem_insertEntry {entry : κ × Tree κ α}
    (hmem : entry ∈ SortedMap.insertEntry key value entries) :
    entry = (key, value) ∨ entry ∈ entries := by
  induction entries with
  | nil => exact .inl (by simpa [SortedMap.insertEntry] using hmem)
  | cons head rest ih =>
    unfold SortedMap.insertEntry at hmem
    split_ifs at hmem
    · exact mem_cons.mp hmem
    · rcases mem_cons.mp hmem with hnew | hrest
      · exact .inl hnew
      · exact .inr (mem_cons_of_mem _ hrest)
    · rcases mem_cons.mp hmem with hhead | hrest
      · exact .inr (hhead ▸ mem_cons_self)
      · exact (ih hrest).imp_right (mem_cons_of_mem _)

theorem ordered_insertEntry (hentries : ordered (.table entries) = true)
    (hvalue : ordered value = true) :
    ordered (.table (SortedMap.insertEntry key value entries)) = true := by
  rw [ordered_table_iff] at hentries ⊢
  refine ⟨SortedMap.insertEntry_sorted key value hentries.1, fun entry hentry => ?_⟩
  rcases mem_insertEntry hentry with rfl | hold
  · exact hvalue
  · exact hentries.2 entry hold

theorem ordered_eraseEntry (key : κ) (hentries : ordered (.table entries) = true) :
    ordered (.table (eraseEntry key entries)) = true := by
  rw [ordered_table_iff] at hentries ⊢
  refine ⟨hentries.1.sublist (List.Sublist.map _ filter_sublist), fun entry hentry => ?_⟩
  exact hentries.2 entry (mem_of_mem_filter hentry)

theorem ordered_removeAt (hentries : ordered (.table entries) = true)
    : ordered (.table (removeAt leaf parents entries)) = true := by
  induction parents generalizing entries with
  | nil => exact ordered_eraseEntry leaf hentries
  | cons part parents ih =>
    unfold removeAt
    split
    next next hfind => exact ordered_insertEntry hentries (ih (ordered_of_find hentries hfind))
    · exact hentries

mutual

theorem ordered_onto {base : Option (Tree κ α)} {value : Tree κ α}
    (hbase : ∀ below ∈ base, ordered below = true) (hvalue : ordered value = true) :
    ordered (onto base value) = true := by
  match base, value with
  | some (.table base), .table overlay =>
    rw [onto]
    exact ordered_ontoEntries (hbase _ rfl) (ordered_table_iff.mp hvalue).2
  | some (.table _), .leaf _ | some (.leaf _), .leaf _ | none, .leaf _ => exact hvalue
  | some (.leaf _), .table _ | none, .table _ => exact hvalue

theorem ordered_ontoEntries {base overlay : List (κ × Tree κ α)}
    (hbase : ordered (.table base) = true)
    (hoverlay : ∀ entry ∈ overlay, ordered entry.2 = true) :
    ordered (.table (ontoEntries base overlay)) = true := by
  match overlay with
  | [] => exact hbase
  | (key, value) :: rest =>
    obtain ⟨hvalue, hrest⟩ := forall_mem_cons.mp hoverlay
    rw [ontoEntries]
    exact ordered_ontoEntries (ordered_insertEntry hbase
      (ordered_onto (fun below hbelow => ordered_of_find hbase hbelow) hvalue)) hrest

end

/-! ## Reading after a merge -/

/-- What stands at a key or path when one layer may say something there and the
layer below may too. -/
def lay (base : Option (Tree κ α)) : Option (Tree κ α) → Option (Tree κ α)
  | none => base
  | some value => some (onto base value)

theorem lay_none_left (overlay : Option (Tree κ α)) : lay none overlay = overlay := by
  cases overlay with
  | none => rfl
  | some value => cases value <;> rfl

theorem find_ontoEntries {overlay : List (κ × Tree κ α)}
    (hnodup : (overlay.map Prod.fst).Nodup) (base : List (κ × Tree κ α)) (key : κ) :
    find (ontoEntries base overlay) key = lay (find base key) (find overlay key) := by
  induction overlay generalizing base with
  | nil => rfl
  | cons entry rest ih =>
    obtain ⟨name, value⟩ := entry
    rw [map_cons, nodup_cons] at hnodup
    rw [ontoEntries, ih hnodup.2, find_insertEntry]
    by_cases hkey : key = name
    · -- The key does not stand in the rest of the overlay again.
      have hrest : find rest name = none := by
        rw [find, find?_eq_none.mpr, Option.map_none]
        intro other hother
        simp only [decide_eq_true_eq]
        exact fun hname => hnodup.1 (mem_map.mpr ⟨other, hother, hname⟩)
      subst hkey
      rw [if_pos rfl, hrest]
      simp [find, lay]
    · rw [if_neg hkey]
      simp [find, Ne.symm hkey]

theorem pointer_lay (path : List κ) (base overlay : Option (Tree κ α))
    (hoverlay : ∀ value ∈ overlay, ordered value = true) :
    pointer path (lay base overlay) =
      if blocks path overlay then none else lay (pointer path base) (pointer path overlay) := by
  induction path generalizing base overlay with
  | nil => simp [pointer, blocks]
  | cons key path ih =>
    match overlay with
    | none => simp [lay]
    | some (.leaf value) => cases base with
        | none => rfl
        | some below => cases below <;> rfl
    | some (.table upper) =>
      have hsorted := (ordered_table_iff.mp (hoverlay _ rfl)).1
      have hupper : ∀ value ∈ find upper key, ordered value = true :=
        fun value hvalue => ordered_of_find (hoverlay _ rfl) hvalue
      match base with
      | some (.table lower) =>
        have hstep := ih (find lower key) (find upper key) hupper
        rw [← find_ontoEntries (hsorted.imp ne_of_lt)] at hstep
        exact hstep
      | none | some (.leaf _) =>
        -- Nothing of the lower layer is left at the path.
        have hstep := ih none (find upper key) hupper
        rw [lay_none_left, pointer_none] at hstep
        exact hstep

/-! ## Reading after a removal -/

theorem pointer_removeAt_self (entries : List (κ × Tree κ α)) :
    pointer (parents ++ [leaf]) (some (.table (removeAt leaf parents entries))) = none := by
  induction parents generalizing entries with
  | nil => simp [removeAt, pointer, find_eraseEntry]
  | cons part parents ih =>
    rw [cons_append, pointer, removeAt]
    split
    next next hfind =>
      rw [find_insertEntry, if_pos rfl]
      exact ih next
    next hfind =>
      cases hvalue : find entries part with
      | none => exact pointer_none _
      | some value =>
        cases value with
        | leaf => cases parents <;> rfl
        | table next => exact absurd hvalue (hfind next)

/-- A removal does not put anything at a path. -/
theorem pointer_removeAt_of_none (hnone : pointer path (some (.table entries)) = none) :
    pointer path (some (.table (removeAt leaf parents entries))) = none := by
  induction parents generalizing path entries with
  | nil =>
    cases path with
    | nil => cases hnone
    | cons key path =>
      rw [removeAt, pointer, find_eraseEntry]
      split
      · exact pointer_none path
      · exact hnone
  | cons part parents ih =>
    cases path with
    | nil => cases hnone
    | cons key path =>
      rw [removeAt]
      split
      next next hfind =>
        rw [pointer, find_insertEntry]
        split
        next heq =>
          rw [pointer, heq, hfind] at hnone
          exact ih hnone
        · exact hnone
      · exact hnone

/-- A removal leaves the leaves on the way to a path, unless it removes one. -/
theorem blocks_removeAt {leaf : κ} {parents : List κ}
    (hpath : parents ++ [leaf] <+: path → path = parents ++ [leaf])
    (entries : List (κ × Tree κ α)) : blocks path (some (.table (removeAt leaf parents entries))) =
      blocks path (some (.table entries)) := by
  induction parents generalizing path entries with
  | nil =>
    cases path with
    | nil => rfl
    | cons key path =>
      rw [removeAt, blocks, blocks, find_eraseEntry]
      split
      next heq =>
        have hlast : path = [] := by
          have hsame := hpath (by rw [heq]; exact prefix_append [leaf] path)
          exact (List.cons.inj hsame).2
        rw [hlast]
        rfl
      · rfl
  | cons part parents ih =>
    cases path with
    | nil => rfl
    | cons key path =>
      rw [removeAt]
      split
      next next hfind =>
        rw [blocks, blocks, find_insertEntry]
        split
        next heq =>
          rw [heq, hfind]
          refine ih (fun hrest => ?_) next
          have hsame := hpath (by rw [heq]; exact prefix_cons_inj part |>.mpr hrest)
          exact (List.cons.inj hsame).2
        · rfl
      · rfl

end Tree

/-! ## Layers -/

/-- A table whose keys, and those of the tables in it, increase. -/
structure Layer (κ α : Type) [LinearOrder κ] where
  entries : List (κ × Tree κ α)
  ordered : Tree.ordered (.table entries) = true

namespace Layer

variable {κ α : Type} [LinearOrder κ]

def empty : Layer κ α where
  entries := []
  ordered := rfl

def get (layer : Layer κ α) (path : List κ) : Option (Tree κ α) :=
  Tree.pointer path (some (.table layer.entries))

/-- A leaf of the layer stands on the way to a path. -/
def hides (layer : Layer κ α) (path : List κ) : Bool :=
  Tree.blocks path (some (.table layer.entries))

/-- A layer with another one laid over it. -/
def merge (base overlay : Layer κ α) : Layer κ α where
  entries := Tree.ontoEntries base.entries overlay.entries
  ordered := Tree.ordered_ontoEntries base.ordered (Tree.ordered_table_iff.mp overlay.ordered).2

def remove (layer : Layer κ α) (parents : List κ) (leaf : κ) : Layer κ α where
  entries := Tree.removeAt leaf parents layer.entries
  ordered := Tree.ordered_removeAt leaf parents layer.ordered

theorem get_merge (base overlay : Layer κ α) (path : List κ) :
    (base.merge overlay).get path =
      if overlay.hides path then none else Tree.lay (base.get path) (overlay.get path) :=
  Tree.pointer_lay path (some (.table base.entries)) (some (.table overlay.entries))
    fun value hvalue => by
      obtain rfl := Option.some.inj hvalue
      exact overlay.ordered

end Layer

end Lib
