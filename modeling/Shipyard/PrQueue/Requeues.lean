import Shipyard.PrQueue.Window

/-!
# Re-adds through a truncated timeline

The walk counts by position; the same count is given here by recursion on the
timeline, where a window is a suffix. A window forgets commits, so a removal
that it shows may lose its head, and the count falls back to timeline order.
-/

namespace Shipyard.PrQueue

open Lib List Option

/-! ## The count by recursion -/

section Recursion

variable (headOf : Json → Option String) (queuedHead : Option String)

/-- Whether an add, followed by the given items, re-adds the head of the
pending removal. -/
def reAdds (pending : Option (Option String × Bool)) (rest : List Json) : Bool :=
  pending.any fun (removed, pushed) =>
    (removed.bind fun removed =>
      (match rest.find? (fun item => itemKind item = ItemKind.removed) with
        | some next => headOf next
        | none => queuedHead).map fun reAdded => eqIgnoreAsciiCase reAdded removed).getD !pushed

/-- The number of re-adds of an unchanged head; the pending removal is kept by its head. -/
def countReAdds : Option (Option String × Bool) → List Json → Nat
  | _, [] => 0
  | pending, item :: rest =>
    match itemKind item with
    | .commit | .forcePush => countReAdds (pending.map fun (removed, _) => (removed, true)) rest
    | .removed =>
      countReAdds
        (if sameHeadRequeueCascades (removalReason item) then some (headOf item, false)
          else none) rest
    | .added =>
      (if reAdds headOf queuedHead pending rest then 1 else 0) + countReAdds none rest
    | .other => countReAdds pending rest

end Recursion

section Walk

variable {nodes : List Json} {known : List String} {queuedHead : Option String}

/-- The pending removal of the walk, by its head instead of its position. -/
def pendingHead (heads : List (Option String)) (pending : Option (Nat × Bool)) :
    Option (Option String × Bool) :=
  pending.map fun (removal, pushed) => ((heads[removal]?).join, pushed)

theorem removedHeads_getElem? (nodes : List Json) (known : List String) (index : Nat) :
    ((removedHeads nodes known)[index]?).join = (nodes[index]?).bind (headOfRemoval known) := by
  rw [removedHeads, getElem?_map]
  cases nodes[index]? <;> rfl

/-- The next removal after an add is the first removal of the items that follow. -/
theorem nextRemoval_of_split (before rest : List Json) (item : Json) :
    (nextRemoval (before ++ item :: rest) (before.length + 1) = none ∧
      rest.find? (fun next => itemKind next = .removed) = none) ∨
    ∃ index next, nextRemoval (before ++ item :: rest) (before.length + 1) = some index ∧
      (before ++ item :: rest)[index]? = some next ∧
      rest.find? (fun next => itemKind next = .removed) = some next := by
  have hrest : ((before ++ item :: rest).zipIdx.drop (before.length + 1)).map Prod.fst = rest := by
    rw [map_drop, zipIdx_map_fst, drop_length_add_append]
    rfl
  have hfind : rest.find? (fun next => itemKind next = .removed) =
      (((before ++ item :: rest).zipIdx.drop (before.length + 1)).find?
        fun next => itemKind next.1 = .removed).map Prod.fst := by
    conv_lhs => rw [← hrest]
    rw [find?_map]
    rfl
  rw [hfind, nextRemoval]
  cases hfound : ((before ++ item :: rest).zipIdx.drop (before.length + 1)).find?
      (fun next => itemKind next.1 = .removed) with
  | none => exact .inl ⟨rfl, rfl⟩
  | some found =>
    have hmem := mem_of_mem_drop (mem_of_find?_eq_some hfound)
    exact .inr ⟨found.2, found.1, rfl, mem_zipIdx_iff_getElem?.mp hmem, rfl⟩

theorem reAddsPending_of_split {before rest : List Json} {item : Json}
    (pending : Option (Nat × Bool)) :
    reAddsPending (before ++ item :: rest) (removedHeads (before ++ item :: rest) known) queuedHead
        pending before.length =
      reAdds (headOfRemoval known) queuedHead
        (pendingHead (removedHeads (before ++ item :: rest) known) pending) rest := by
  cases pending with
  | none => rfl
  | some pair =>
    simp only [reAddsPending, reAdds, pendingHead, any_some, map_some,
      sameHeadReAdd]
    cases ((removedHeads (before ++ item :: rest) known)[pair.1]?).join with
    | none => rfl
    | some removed =>
      rcases nextRemoval_of_split before rest item with
        ⟨hnext, hfind⟩ | ⟨index, next, hnext, hget, hfind⟩
      · simp only [hnext, hfind, bind_some]
      · simp only [hnext, hfind, bind_some, removedHeads_getElem?, hget]

/-- The walk counts what the recursion counts. -/
theorem foldl_walkStep_requeues (items before : List Json) (hnodes : nodes = before ++ items)
    (walk : Walk) :
    ((items.zipIdx before.length).foldl (walkStep nodes (removedHeads nodes known) queuedHead)
        walk).requeues =
      walk.requeues + countReAdds (headOfRemoval known) queuedHead
        (pendingHead (removedHeads nodes known) walk.hazardPending) items := by
  -- `before` is what the walk has passed: an index of the walk is a position in `nodes`.
  induction items generalizing before walk with
  | nil => simp [countReAdds]
  | cons item rest ih =>
    have hshift : before.length + 1 = (before ++ [item]).length := by simp
    rw [zipIdx_cons, foldl_cons, hshift,
      ih (before ++ [item]) (by rw [hnodes, append_assoc]; rfl)]
    rw [countReAdds, walkStep]
    cases hkind : itemKind item with
    | commit => cases walk.hazardPending <;> rfl
    | forcePush => cases walk.hazardPending <;> rfl
    | removed =>
      -- The head at the position of this removal is the head of the removal.
      have hhead : ((removedHeads nodes known)[before.length]?).join =
          headOfRemoval known item := by
        rw [removedHeads_getElem?, hnodes, getElem?_append_right (by omega)]
        simp
      dsimp only
      split
      · simp only [pendingHead, map_some, hhead]
      · rfl
    | added =>
      dsimp only
      subst hnodes
      rw [reAddsPending_of_split]
      split
      · simp only [pendingHead, map_none]; omega
      · simp only [pendingHead, map_none]; omega
    | other => rfl

theorem walkTimeline_requeues :
    (walkTimeline nodes (removedHeads nodes known) queuedHead).requeues =
      countReAdds (headOfRemoval known) queuedHead none nodes := by
  have hcount : ((nodes.zipIdx 0).foldl (walkStep nodes (removedHeads nodes known) queuedHead)
      {}).requeues = 0 + countReAdds (headOfRemoval known) queuedHead none nodes :=
    foldl_walkStep_requeues nodes [] rfl {}
  simpa [walkTimeline] using hcount

end Walk

/-! ## Windows -/

section Window

variable {headOf other : Json → Option String} {queuedHead : Option String}

theorem countReAdds_none_le (pending : Option (Option String × Bool)) (items : List Json) :
    countReAdds headOf queuedHead none items ≤ countReAdds headOf queuedHead pending items := by
  induction items generalizing pending with
  | nil => exact le_rfl
  | cons item rest ih =>
    rw [countReAdds, countReAdds]
    cases itemKind item with
    | commit => exact ih _
    | forcePush => exact ih _
    | removed => exact le_rfl
    | added => exact Nat.add_le_add_right (by simp [reAdds]) _
    | other => exact ih _

/-- Older items add to the count. -/
theorem countReAdds_le_append (older window : List Json)
    (pending : Option (Option String × Bool)) :
    countReAdds headOf queuedHead none window ≤
      countReAdds headOf queuedHead pending (older ++ window) := by
  -- Older items can only leave a removal pending, which adds to the count of the rest.
  induction older generalizing pending with
  | nil => exact countReAdds_none_le pending window
  | cons item rest ih =>
    rw [cons_append, countReAdds]
    cases itemKind item with
    | commit => exact ih _
    | forcePush => exact ih _
    | removed => exact ih _
    | added => exact (ih none).trans (Nat.le_add_left _ _)
    | other => exact ih _

theorem countReAdds_congr {items : List Json} (hagree : ∀ item ∈ items, headOf item = other item)
    (pending : Option (Option String × Bool)) :
    countReAdds headOf queuedHead pending items = countReAdds other queuedHead pending items := by
  induction items generalizing pending with
  | nil => rfl
  | cons item rest ih =>
    have hrest : ∀ item ∈ rest, headOf item = other item := fun next hnext =>
      hagree next (mem_cons_of_mem _ hnext)
    have hreAdds : ∀ pending, reAdds headOf queuedHead pending rest =
        reAdds other queuedHead pending rest := by
      intro pending
      unfold reAdds
      cases hfind : rest.find? fun item => itemKind item = .removed with
      | none => rfl
      | some next => simp only [hrest next (mem_of_find?_eq_some hfind)]
    rw [countReAdds, countReAdds]
    cases itemKind item with
    | commit => exact ih hrest _
    | forcePush => exact ih hrest _
    | removed =>
      rw [hagree item mem_cons_self]
      exact ih hrest _
    | added => simp only [hreAdds, ih hrest]
    | other => exact ih hrest _

/-- The window knows each commit its removals name that the older items pushed. -/
def WindowKnowsRemoved (older window : List Json) (headOid : Option String) : Prop :=
  ∀ node ∈ window, itemKind node = .removed → ∀ oid ∈ namedOids node,
    isKnown (older.filterMap pushedOid) oid = true → isKnown (knownHeads window headOid) oid = true

theorem WindowKnowsRemoved.headOfRemoval_eq {older window : List Json} {headOid : Option String}
    (hknows : WindowKnowsRemoved older window headOid) {node : Json} (hnode : node ∈ window) :
    headOfRemoval (knownHeads window headOid) node =
      headOfRemoval (knownHeads (older ++ window) headOid) node := by
  unfold headOfRemoval
  split
  next hkind =>
    refine removedHead_congr fun oid hoid => ?_
    rw [Bool.eq_iff_iff]
    refine ⟨isKnown_mono (knownHeads_window_subset older window headOid), fun hknown => ?_⟩
    -- A commit known to the complete timeline is pushed by an older item or known to the window.
    have hsplit : isKnown (older.filterMap pushedOid) oid = true ∨
        isKnown (knownHeads window headOid) oid = true := by
      rw [← Bool.or_eq_true, isKnown, isKnown, ← any_append, knownHeads, ← append_assoc,
        ← filterMap_append]
      exact hknown
    exact hsplit.elim (hknows node hnode hkind oid hoid) id
  · rfl

end Window

end Shipyard.PrQueue
