import Mathlib.Data.List.Nodup

/-!
# Runs of a system

A run collects the outputs; which inputs it may take in which state is a parameter.
-/

namespace AnnchainOG

variable {σ α β : Type}

inductive Run (step : σ → α → σ → List β → Prop) (allowed : σ → α → Prop) (start : σ) :
    σ → List β → Prop where
  | start : Run step allowed start start []
  | next {state after : σ} {outputs new : List β} {input : α}
      (earlier : Run step allowed start state outputs) (isAllowed : allowed state input)
      (stepped : step state input after new) : Run step allowed start after (outputs ++ new)

namespace Run

variable {step : σ → α → σ → List β → Prop} {allowed : σ → α → Prop} {start : σ}

theorem invariant {motive : σ → List β → Prop} (atStart : motive start [])
    (kept : ∀ {state after outputs new input}, motive state outputs → allowed state input →
      step state input after new → motive after (outputs ++ new))
    {state : σ} {outputs : List β} (run : Run step allowed start state outputs) :
    motive state outputs := by
  induction run with
  | start => exact atStart
  | next _ isAllowed stepped holds => exact kept holds isAllowed stepped

end Run

section Follow

variable {ε : Type} {act : σ → α → Except ε (σ × List β)}
variable {final : σ} {inputs : List α}

/-- The state after a list of inputs, as long as each passes the test and does not fail. -/
def follow (act : σ → α → Except ε (σ × List β)) (test : σ → α → Bool) (state : σ) :
    List α → Option σ
  | [] => some state
  | input :: rest =>
    if test state input then
      match act state input with
      | .error _ => none
      | .ok (after, _) => follow act test after rest
    else none

variable {allowed : σ → α → Prop} [∀ state input, Decidable (allowed state input)]

theorem follow_run {start state : σ} {outputs : List β}
    (run : Run (fun state input after new => act state input = .ok (after, new)) allowed start
      state outputs)
    (followed : follow act (fun state input => decide (allowed state input)) state inputs =
      some final) :
    ∃ all, Run (fun state input after new => act state input = .ok (after, new)) allowed start
      final all := by
  induction inputs generalizing state outputs with
  | nil =>
    cases followed
    exact ⟨outputs, run⟩
  | cons input rest ih =>
    rw [follow] at followed
    split at followed
    next passes =>
      split at followed
      · cases followed
      next acted => exact ih (.next run (of_decide_eq_true passes) acted) followed
    · cases followed

theorem follow_reaches {created : Except ε σ} (followed : (created.toOption.bind fun start =>
      follow act (fun state input => decide (allowed state input)) start inputs) = some final) :
    ∃ start outputs, created = .ok start ∧
      Run (fun state input after new => act state input = .ok (after, new)) allowed start final
        outputs := by
  cases created with
  | error failure => cases followed
  | ok start =>
    obtain ⟨outputs, run⟩ := follow_run .start followed
    exact ⟨start, outputs, rfl, run⟩

end Follow

/-! ## Systems that put nothing out -/

inductive Reach {ε : Type} (act : σ → α → Except ε σ) (allowed : σ → α → Prop) (start : σ) :
    σ → Prop where
  | start : Reach act allowed start start
  | next {state after : σ} {input : α} (earlier : Reach act allowed start state)
      (isAllowed : allowed state input) (acted : act state input = .ok after) :
      Reach act allowed start after

section Reach

variable {ε : Type} {act : σ → α → Except ε σ} {allowed : σ → α → Prop} {start state : σ}

theorem Reach.invariant {motive : σ → Prop} (atStart : motive start)
    (kept : ∀ {state after input}, motive state → allowed state input →
      act state input = .ok after → motive after)
    (reached : Reach act allowed start state) : motive state := by
  induction reached with
  | start => exact atStart
  | next _ isAllowed acted holds => exact kept holds isAllowed acted

theorem Reach.after {next : σ} {input : α} (isAllowed : allowed start input)
    (acted : act start input = .ok next) (reached : Reach act allowed next state) :
    Reach act allowed start state := by
  induction reached with
  | start => exact .next .start isAllowed acted
  | next _ isAllowed acted ih => exact .next ih isAllowed acted

def replay (act : σ → α → Except ε σ) (test : σ → α → Bool) (state : σ) : List α → Option σ
  | [] => some state
  | input :: rest =>
    if test state input then
      match act state input with
      | .error _ => none
      | .ok after => replay act test after rest
    else none

theorem Reach.of_replay [∀ state input, Decidable (allowed state input)] {inputs : List α}
    (replayed : replay act (fun state input => decide (allowed state input)) start inputs =
      some state) : Reach act allowed start state := by
  induction inputs generalizing start with
  | nil =>
    cases replayed
    exact .start
  | cons input rest ih =>
    rw [replay] at replayed
    split at replayed
    next passes =>
      split at replayed
      · cases replayed
      next acted => exact .after (of_decide_eq_true passes) acted (ih replayed)
    · cases replayed

end Reach

structure SeenOnce (before now : α → Prop) (seen : List α) : Prop where
  distinct : seen.Nodup
  new : ∀ item ∈ seen, ¬ before item
  known : ∀ item, before item ∨ item ∈ seen → now item

namespace SeenOnce

variable {before now later : α → Prop} {seen more : List α}

theorem start (before : α → Prop) : SeenOnce before before [] where
  distinct := List.nodup_nil
  new := by simp
  known := by simp

theorem mono (once : SeenOnce before now seen) (grows : ∀ item, now item → later item) :
    SeenOnce before later seen :=
  ⟨once.distinct, once.new, fun item known => grows item (once.known item known)⟩

theorem append (once : SeenOnce before now seen) (distinct : more.Nodup)
    (unknown : ∀ item ∈ more, ¬ now item) (grows : ∀ item, now item ∨ item ∈ more → later item) :
    SeenOnce before later (seen ++ more) where
  distinct := by
    refine List.nodup_append'.mpr ⟨once.distinct, distinct, fun item earlier isNew => ?_⟩
    exact unknown item isNew (once.known item (.inr earlier))
  new item member := by
    rcases List.mem_append.mp member with earlier | isNew
    · exact once.new item earlier
    · exact fun wasKnown => unknown item isNew (once.known item (.inl wasKnown))
  known item known := by
    rcases known with wasKnown | member
    · exact grows item (.inl (once.known item (.inl wasKnown)))
    rcases List.mem_append.mp member with earlier | isNew
    · exact grows item (.inl (once.known item (.inr earlier)))
    · exact grows item (.inr isNew)

end SeenOnce

end AnnchainOG
