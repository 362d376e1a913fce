import Mathlib.Data.Finset.Card
import Mathlib.Data.List.Dedup

/-!
# Worklists

What an opened node leads to is queued unless another one led to it before; the nodes that are
queued at the start are not noted.
-/

namespace Worklist

open List

variable {α : Type}

/-- The search ends at a node, goes past it, or goes on to others. -/
inductive Look (α : Type) where
  | stop
  | skip
  | next (nodes : List α)

inductive Reaches (look : α → Look α) (roots : List α) : α → Prop where
  | root {node : α} (member : node ∈ roots) : Reaches look roots node
  | next {node other : α} {nodes : List α} (reached : Reaches look roots node)
      (opens : look node = .next nodes) (member : other ∈ nodes) : Reaches look roots other

/-- The search ends where it has to, or it opens all that is reached. -/
def Result (look : α → Look α) (roots : List α) : Except α (List α) → Prop
  | .error node => Reaches look roots node ∧ look node = .stop
  | .ok opened => (∀ node, Reaches look roots node → look node ≠ .stop) ∧
      ∀ node, node ∈ opened ↔ Reaches look roots node ∧ ∃ nodes, look node = .next nodes

variable {look : α → Look α} {roots queue noted opened nodes : List α} {node : α}

structure Invariant (look : α → Look α) (roots queue noted opened : List α) : Prop where
  queued : ∀ node ∈ queue, Reaches look roots node
  visited : ∀ node ∈ opened, Reaches look roots node ∧
    ∃ nodes, look node = .next nodes ∧ nodes ⊆ noted
  done : ∀ node, node ∈ roots ∨ node ∈ noted → node ∈ queue ∨ node ∈ opened ∨ look node = .skip

namespace Invariant

theorem skip (holds : Invariant look roots (node :: queue) noted opened)
    (skips : look node = .skip) : Invariant look roots queue noted opened where
  queued other member := holds.queued other (mem_cons_of_mem _ member)
  visited := holds.visited
  done other isNoted := by
    rcases holds.done other isNoted with inQueue | elsewhere
    · rcases mem_cons.mp inQueue with rfl | later
      · exact .inr (.inr skips)
      · exact .inl later
    · exact .inr elsewhere

theorem result (holds : Invariant look roots [] noted opened) : Result look roots (.ok opened) := by
  have all : ∀ node, Reaches look roots node → node ∈ opened ∨ look node = .skip := by
    intro node reached
    induction reached with
    | root member => exact (holds.done _ (.inl member)).resolve_left not_mem_nil
    | next _ opens member ih =>
      rcases ih with isOpened | skips
      · obtain ⟨-, nodes, sameOpens, subset⟩ := holds.visited _ isOpened
        cases opens.symm.trans sameOpens
        exact (holds.done _ (.inr (subset member))).resolve_left not_mem_nil
      · cases opens.symm.trans skips
  refine ⟨fun node reached stops => ?_, fun node => ⟨fun isOpened => ?_, ?_⟩⟩
  · rcases all node reached with isOpened | skips
    · obtain ⟨-, nodes, opens, -⟩ := holds.visited node isOpened
      cases opens.symm.trans stops
    · cases skips.symm.trans stops
  · obtain ⟨reached, nodes, opens, -⟩ := holds.visited node isOpened
    exact ⟨reached, nodes, opens⟩
  · rintro ⟨reached, nodes, opens⟩
    refine (all node reached).resolve_right fun skips => ?_
    cases opens.symm.trans skips

end Invariant

variable [DecidableEq α]

def enqueue (queue noted : List α) : List α → List α × List α
  | [] => (queue, noted)
  | node :: rest =>
    if node ∈ noted then enqueue queue noted rest
    else enqueue (queue ++ [node]) (node :: noted) rest

/-- As far as `fuel` turns go: where the search ends, or the nodes it opened, the last one first. -/
def search (look : α → Look α) : Nat → List α → List α → List α → Option (Except α (List α))
  | _, [], _, opened => some (.ok opened)
  | 0, _ :: _, _, _ => none
  | fuel + 1, node :: queue, noted, opened =>
    match look node with
    | .stop => some (.error node)
    | .skip => search look fuel queue noted opened
    | .next nodes =>
      search look fuel (enqueue queue noted nodes).1 (enqueue queue noted nodes).2 (node :: opened)

theorem mem_enqueue :
    (node ∈ (enqueue queue noted nodes).1 ↔ node ∈ queue ∨ node ∈ nodes ∧ node ∉ noted) ∧
      (node ∈ (enqueue queue noted nodes).2 ↔ node ∈ noted ∨ node ∈ nodes) := by
  induction nodes generalizing queue noted with
  | nil => simp [enqueue]
  | cons first rest ih =>
    rw [enqueue]
    split
    · grind
    · grind

theorem enqueue_measure {known : Finset α} (subset : ∀ node ∈ nodes, node ∈ known) :
    (enqueue queue noted nodes).1.length + (known \ (enqueue queue noted nodes).2.toFinset).card ≤
      queue.length + (known \ noted.toFinset).card := by
  induction nodes generalizing queue noted with
  | nil => exact le_refl _
  | cons first rest ih =>
    rw [enqueue]
    split
    · exact ih fun node member => subset node (mem_cons_of_mem _ member)
    rename_i unseen
    refine (ih fun node member => subset node (mem_cons_of_mem _ member)).trans ?_
    -- the queue grows by a node that is no longer unseen
    have fresh : first ∈ known \ noted.toFinset := by simp [subset first mem_cons_self, unseen]
    have shrinks := Finset.card_erase_lt_of_mem fresh
    rw [toFinset_cons, Finset.sdiff_insert, length_append, length_singleton]
    omega

namespace Invariant

theorem next (holds : Invariant look roots (node :: queue) noted opened)
    (opens : look node = .next nodes) :
    Invariant look roots (enqueue queue noted nodes).1 (enqueue queue noted nodes).2
      (node :: opened) := by
  have reached := holds.queued node mem_cons_self
  refine ⟨fun other member => ?_, fun other member => ?_, fun other isNoted => ?_⟩
  · rcases mem_enqueue.1.mp member with inQueue | ⟨isNext, -⟩
    · exact holds.queued other (mem_cons_of_mem _ inQueue)
    · exact .next reached opens isNext
  · rcases mem_cons.mp member with rfl | before
    · exact ⟨reached, nodes, opens, fun _ isNext => mem_enqueue.2.mpr (.inr isNext)⟩
    · obtain ⟨otherReached, others, otherOpens, subset⟩ := holds.visited other before
      exact ⟨otherReached, others, otherOpens, fun _ isNext => mem_enqueue.2.mpr (.inl (subset isNext))⟩
  · rw [mem_enqueue.2] at isNoted
    rw [mem_enqueue.1]
    have before := holds.done other
    grind

theorem search (holds : Invariant look roots queue noted opened) {known : Finset α}
    (finite : ∀ node nodes, look node = .next nodes → ∀ other ∈ nodes, other ∈ known) {fuel : Nat}
    (enough : queue.length + (known \ noted.toFinset).card ≤ fuel) :
    ∃ result, search look fuel queue noted opened = some result ∧ Result look roots result := by
  induction fuel generalizing queue noted opened with
  | zero =>
    cases queue with
    | nil => exact ⟨_, rfl, holds.result⟩
    | cons node queue =>
      rw [length_cons] at enough
      omega
  | succ fuel ih =>
    cases queue with
    | nil => exact ⟨_, rfl, holds.result⟩
    | cons node queue =>
      have restEnough : queue.length + (known \ noted.toFinset).card ≤ fuel := by
        rw [length_cons] at enough
        omega
      rw [Worklist.search]
      cases looked : look node with
      | stop => exact ⟨_, rfl, holds.queued node mem_cons_self, looked⟩
      | skip => exact ih (holds.skip looked) restEnough
      | next nodes =>
        exact ih (holds.next looked) ((enqueue_measure (finite node nodes looked)).trans restEnough)

end Invariant

theorem search_result {known : Finset α}
    (finite : ∀ node nodes, look node = .next nodes → ∀ other ∈ nodes, other ∈ known) {fuel : Nat}
    (enough : roots.length + known.card ≤ fuel) :
    ∃ result, search look fuel roots [] [] = some result ∧ Result look roots result := by
  have start : Invariant look roots roots [] [] :=
    ⟨fun _ => .root, by simp, fun _ isRoot => .inl (by simpa using isRoot)⟩
  exact start.search finite (by simpa using enough)

end Worklist
