import AnnchainOG.Common
import AnnchainOG.Lib.Runs

/-!
# Batched writes

`Putter.Put` hands each pair to a goroutine, which keeps the last error in a field. `Write` looks at
the field, waits for the goroutines and writes the batch: an error that is reported while it waits
is lost.
-/

namespace AnnchainOG

open List Nat

open List (range)

/-- The pairs in call order, which of these puts the batch refuses, and whether it refuses to be
written. -/
structure BatchWrite where
  pairs : List (Bytes × Bytes)
  failing : Nat → Bool
  flushFails : Bool

/-- The error of the put with this index, or of the batch itself. -/
inductive WriteError where
  | put (index : Nat)
  | flush
  deriving DecidableEq

inductive Caller where
  /-- Before the put with this index, or before `Write` if there is none. -/
  | put (index : Nat)
  /-- In `Put`, past the look at the error. -/
  | send (index : Nat)
  /-- In `Write`, past the look at the error. -/
  | wait
  | returned (result : Except WriteError Unit)

inductive PutPhase where
  | answered
  | reported
  | released
  deriving DecidableEq

structure Putter where
  caller : Caller
  err : Option Nat
  writeConcurrenceChan : Nat
  wg : Nat
  /-- The goroutines that did not get the mutex yet. -/
  started : List Nat
  mu : Option (Nat × PutPhase)
  /-- The puts that the batch accepted and refused, in the order in which it got them. -/
  received : List Nat
  refused : List Nat

/-- The scheduler lets the caller go on, gives the mutex to a goroutine, or lets its holder go
on. -/
inductive PutterMove where
  | call
  | lock (index : Nat)
  | hold
  deriving DecidableEq

inductive Blocked where
  | blocked

variable (write : BatchWrite)

namespace Putter

def writeConcurrence : Nat := 100

def newBatch : Putter := ⟨.put 0, none, 0, 0, [], none, [], []⟩

def call (p : Putter) : Except Blocked Putter :=
  match p.caller with
  | .put index =>
    if index < write.pairs.length then
      if p.err.isSome then .ok { p with caller := .put (index + 1) }
      else .ok { p with caller := .send index }
    else
      match p.err with
      | some failed => .ok { p with caller := .returned (.error (.put failed)) }
      | none => .ok { p with caller := .wait }
  | .send index =>
    if p.writeConcurrenceChan < writeConcurrence then
      .ok { p with
        caller := .put (index + 1)
        writeConcurrenceChan := p.writeConcurrenceChan + 1
        wg := p.wg + 1
        started := p.started ++ [index] }
    else .error .blocked
  | .wait =>
    if p.wg = 0 then
      .ok { p with caller := .returned (if write.flushFails then .error .flush else .ok ()) }
    else .error .blocked
  | .returned _ => .error .blocked

def lock (p : Putter) (index : Nat) : Except Blocked Putter :=
  if p.mu.isNone ∧ index ∈ p.started then
    let p := { p with started := p.started.erase index, mu := some (index, .answered) }
    if write.failing index then .ok { p with refused := p.refused ++ [index] }
    else .ok { p with received := p.received ++ [index] }
  else .error .blocked

def hold (p : Putter) : Except Blocked Putter :=
  match p.mu with
  | none => .error .blocked
  | some (index, .answered) =>
    .ok { p with
      err := if write.failing index then some index else p.err
      mu := some (index, .reported) }
  | some (index, .reported) =>
    .ok { p with
      writeConcurrenceChan := p.writeConcurrenceChan - 1
      mu := some (index, .released) }
  | some (_, .released) => .ok { p with wg := p.wg - 1, mu := none }

def move (p : Putter) : PutterMove → Except Blocked Putter
  | .call => p.call write
  | .lock index => p.lock write index
  | .hold => p.hold write

abbrev Reached (p : Putter) : Prop :=
  Reach (move write) (fun _ _ => True) newBatch p

end Putter

namespace BatchWrite

def puts (indices : List Nat) : List (Bytes × Bytes) :=
  indices.filterMap (write.pairs[·]?)

/-- A `Write` without an error has the effect of the puts one after another, and a refused put makes
it return one. -/
def Faithful : Prop :=
  ∀ p result, Putter.Reached write p → p.caller = .returned result →
    (result = .ok () → ∀ db : GoMap Bytes Bytes,
      db.setAll (write.puts p.received) = db.setAll write.pairs) ∧
    (p.refused ≠ [] → ∃ error, result = .error error)

def failures (count : Nat) : Nat :=
  ((List.range count).filter write.failing).length

end BatchWrite

namespace Putter

variable {write : BatchWrite} {p next : Putter}

theorem Reached.move (reached : Reached write p) (step : PutterMove)
    (moved : p.move write step = .ok next) : Reached write next :=
  .next reached trivial moved

theorem reached_replay (write : BatchWrite) (moves : List PutterMove)
    (replayed : replay (Putter.move write) (fun _ _ => decide True) newBatch moves = some p) :
    Reached write p :=
  Reach.of_replay replayed

/-! ## Schedules that delay some puts -/

def staged (delay : Nat → Bool) (count : Nat) : Putter where
  caller := .put count
  err := none
  writeConcurrenceChan := ((List.range count).filter delay).length
  wg := ((List.range count).filter delay).length
  started := (List.range count).filter delay
  mu := none
  received := (List.range count).filter (!delay ·)
  refused := []

theorem Reached.finish (reached : Reached write p) (free : p.mu = none) {index : Nat}
    (isStarted : index ∈ p.started) :
    Reached write { p with
      err := if write.failing index then some index else p.err
      writeConcurrenceChan := p.writeConcurrenceChan - 1, wg := p.wg - 1
      started := p.started.erase index
      received := if write.failing index then p.received else p.received ++ [index]
      refused := if write.failing index then p.refused ++ [index] else p.refused } := by
  have locked : Reached write { p with
      started := p.started.erase index
      mu := some (index, .answered)
      received := if write.failing index then p.received else p.received ++ [index]
      refused := if write.failing index then p.refused ++ [index] else p.refused } := by
    refine reached.move (.lock index) ?_
    simp only [Putter.move, lock, free, Option.isNone_none, isStarted, and_self, if_true]
    split <;> rfl
  have reported := locked.move .hold rfl
  have released := reported.move .hold rfl
  have done := released.move .hold rfl
  simp only [← free] at done
  exact done

theorem reached_staged {delay : Nat → Bool}
    (delayed : ∀ index, write.failing index = true → delay index = true)
    (room : ∀ count < write.pairs.length,
      ((range count).filter delay).length < writeConcurrence) {count : Nat}
    (within : count ≤ write.pairs.length) : Reached write (staged delay count) := by
  induction count with
  | zero => exact .start
  | succ count ih =>
    have passed : Reached write { staged delay count with caller := .send count } := by
      refine (ih (le_of_lt within)).move .call ?_
      simp only [Putter.move, call, staged, lt_of_succ_le within, if_true,
        Option.isSome_none, Bool.false_eq_true, if_false]
    have spawned : Reached write { staged delay count with
        caller := .put (count + 1)
        writeConcurrenceChan := ((range count).filter delay).length + 1
        wg := ((range count).filter delay).length + 1
        started := (range count).filter delay ++ [count] } := by
      refine passed.move .call ?_
      simp only [Putter.move, call, staged, room count within, if_true]
    by_cases isDelayed : delay count = true
    · convert spawned using 1
      simp [staged, range_succ, filter_append, isDelayed]
    have accepted : write.failing count = false :=
      Bool.eq_false_iff.mpr fun failing => isDelayed (delayed count failing)
    have notStarted : count ∉ (range count).filter delay :=
      fun member => lt_irrefl _ (mem_range.mp (mem_of_mem_filter member))
    have done := spawned.finish rfl (mem_append_right _ mem_cons_self)
    convert done using 1
    simp [staged, range_succ, filter_append, isDelayed, accepted, erase_append_right _ notStarted]

theorem reached_drained (started : List Nat) (p : Putter)
    (reached : Reached write { p with started := started, wg := started.length, mu := none }) :
    ∃ err chan, Reached write { p with
      err := err, writeConcurrenceChan := chan, wg := 0, started := [], mu := none
      received := p.received ++ started.filter (!write.failing ·)
      refused := p.refused ++ started.filter write.failing } := by
  induction started generalizing p with
  | nil =>
    refine ⟨p.err, p.writeConcurrenceChan, ?_⟩
    simpa using reached
  | cons index rest ih =>
    have done := reached.finish rfl mem_cons_self
    rw [erase_cons_head] at done
    obtain ⟨err, chan, drained⟩ := ih { p with
      err := if write.failing index then some index else p.err
      writeConcurrenceChan := p.writeConcurrenceChan - 1
      received := if write.failing index then p.received else p.received ++ [index]
      refused := if write.failing index then p.refused ++ [index] else p.refused } done
    refine ⟨err, chan, ?_⟩
    convert drained using 2
    · cases failing : write.failing index <;> simp [failing]
    · cases failing : write.failing index <;> simp [failing]

theorem reached_delayed (delay : Nat → Bool)
    (delayed : ∀ index, write.failing index = true → delay index = true)
    (room : ∀ count < write.pairs.length, ((range count).filter delay).length < writeConcurrence)
    (flushes : write.flushFails = false) :
    ∃ p, Reached write p ∧ p.caller = .returned (.ok ()) ∧
      p.received = (range write.pairs.length).filter (!delay ·) ++
        ((range write.pairs.length).filter delay).filter (!write.failing ·) ∧
      p.refused = ((range write.pairs.length).filter delay).filter write.failing := by
  have all := reached_staged delayed room (le_refl _)
  have waits : Reached write { staged delay write.pairs.length with caller := .wait } := by
    refine all.move .call ?_
    simp only [Putter.move, call, staged, lt_irrefl, if_false]
  obtain ⟨err, chan, drained⟩ :=
    reached_drained _ { staged delay write.pairs.length with caller := .wait } waits
  have returns := drained.move .call rfl
  rw [flushes] at returns
  exact ⟨_, returns, rfl, rfl, rfl⟩

/-! ## Every schedule -/

def inChan : Option (Nat × PutPhase) → Nat
  | none | some (_, .released) => 0
  | some (_, .answered) | some (_, .reported) => 1

end Putter

namespace Caller

def made (count : Nat) : Caller → Nat
  | .put index | .send index => index
  | .wait | .returned _ => count

def committed : Caller → Bool
  | .wait | .returned (.ok ()) => true
  | .put _ | .send _ | .returned (.error _) => false

def within (count : Nat) : Caller → Prop
  | .put index => index ≤ count
  | .send index => index < count
  | .wait | .returned _ => True

end Caller

namespace Putter

variable {write : BatchWrite} {p next : Putter}

structure Sound (write : BatchWrite) (p : Putter) : Prop where
  chan : p.writeConcurrenceChan = p.started.length + inChan p.mu
  wg : p.wg = p.started.length + p.mu.toList.length
  received : ∀ index ∈ p.received, write.failing index = false
  refused : ∀ index ∈ p.refused, write.failing index = true
  /-- Without an error, the only refused put is one that was not reported yet. -/
  silent : p.err = none → p.refused = [] ∨ ∃ index, p.mu = some (index, .answered) ∧ p.refused = [index]
  /-- Every put was handed to a goroutine, or an error turned it away and `Write` sees it. -/
  complete : (p.received ++ p.refused ++ p.started).Perm
      (List.range (p.caller.made write.pairs.length)) ∨
    p.err.isSome = true ∧ p.caller.committed = false
  within : p.caller.within write.pairs.length
  /-- The refused puts before the last one were in the channel together. -/
  room : p.err = none ∨ p.caller.committed = true →
    write.failures (p.caller.made write.pairs.length - 1) < writeConcurrence
  done : p.caller = .returned (.ok ()) → write.flushFails = false ∧ p.started = [] ∧ p.mu = none

theorem Sound.newBatch (write : BatchWrite) : Sound write newBatch where
  chan := rfl
  wg := rfl
  received _ member := absurd member not_mem_nil
  refused _ member := absurd member not_mem_nil
  silent _ := .inl rfl
  complete := .inl (.refl _)
  within := zero_le _
  room _ := succ_pos 99
  done returned := by cases returned

theorem Sound.none_refused (sound : Sound write p)
    (reported : ∀ index, p.mu ≠ some (index, .answered)) (noError : p.err = none) :
    p.refused = [] := by
  rcases sound.silent noError with isEmpty | ⟨index, isMu, -⟩
  · exact isEmpty
  · exact absurd isMu (reported index)

theorem Sound.failures_le (sound : Sound write p) (noError : p.err = none) :
    write.failures (p.caller.made write.pairs.length) ≤ p.writeConcurrenceChan := by
  have perm : (p.received ++ p.refused ++ p.started).Perm
      (range (p.caller.made write.pairs.length)) := by
    refine sound.complete.resolve_right fun turnedAway => ?_
    rw [noError] at turnedAway
    cases turnedAway.1
  have unreported : p.refused.length ≤ inChan p.mu := by
    rcases sound.silent noError with isEmpty | ⟨index, isMu, isRefused⟩
    · rw [isEmpty]
      exact zero_le _
    · rw [isMu, isRefused]
      exact le_refl _
  have accepted : p.received.filter write.failing = [] := by
    refine filter_eq_nil_iff.mpr fun index member => ?_
    rw [sound.received index member]
    decide
  calc write.failures (p.caller.made write.pairs.length)
      = ((p.received ++ p.refused ++ p.started).filter write.failing).length :=
        ((perm.filter write.failing).length_eq).symm
    _ = (p.refused.filter write.failing).length + (p.started.filter write.failing).length := by
        rw [filter_append, filter_append, accepted, nil_append, length_append]
    _ ≤ inChan p.mu + p.started.length :=
        Nat.add_le_add ((length_filter_le _ _).trans unreported) (length_filter_le _ _)
    _ = p.writeConcurrenceChan := by rw [sound.chan, add_comm]

theorem Sound.call (sound : Sound write p) (called : p.call write = .ok next) :
    Sound write next := by
  unfold Putter.call at called
  split at called
  next index isPut =>
    have within := sound.within
    have complete := sound.complete
    have room := sound.room
    rw [isPut] at within complete room
    split at called
    next isLess =>
      split at called
      next hasError =>
        cases called
        refine { sound with
          complete := .inr ⟨hasError, rfl⟩, within := isLess, room := ?_
          done := nofun }
        rintro (noError | committed)
        · rw [show p.err = none from noError] at hasError
          cases hasError
        · cases committed
      · cases called
        exact { sound with
          complete := complete, within := isLess, room := room
          done := nofun }
    next notLess =>
      have isLast : index = write.pairs.length := Nat.le_antisymm within (Nat.le_of_not_lt notLess)
      split at called
      next failed hasError =>
        cases called
        refine { sound with
          complete := .inr ⟨by rw [hasError]; rfl, rfl⟩, within := trivial, room := ?_
          done := nofun }
        rintro (noError | committed)
        · cases hasError.symm.trans noError
        · cases committed
      next noError =>
        cases called
        refine { sound with
          complete := .inl ?_, within := trivial, room := fun _ => ?_
          done := nofun }
        · rcases complete with perm | ⟨hasError, -⟩
          · exact isLast ▸ perm
          · rw [noError] at hasError
            cases hasError
        · have bound := room (.inl noError)
          exact isLast ▸ bound
  next index isSend =>
    have within := sound.within
    have complete := sound.complete
    have bound : p.err = none → write.failures index ≤ p.writeConcurrenceChan := by
      intro noError
      have all := sound.failures_le noError
      rw [isSend] at all
      exact all
    rw [isSend] at within complete
    split at called
    next hasRoom =>
      cases called
      refine { sound with
        chan := ?_, wg := ?_, complete := ?_, within := within, room := ?_
        done := nofun }
      · rw [sound.chan, length_append]
        exact add_right_comm _ _ _
      · rw [sound.wg, length_append]
        exact add_right_comm _ _ _
      · refine complete.imp (fun perm => ?_) id
        show (p.received ++ p.refused ++ (p.started ++ [index])).Perm (range (index + 1))
        rw [← append_assoc, range_succ]
        exact perm.append_right [index]
      · rintro (noError | committed)
        · exact lt_of_le_of_lt (bound noError) hasRoom
        · cases committed
    · cases called
  next isWait =>
    have complete := sound.complete
    have room := sound.room
    rw [isWait] at complete room
    split at called
    next allDone =>
      cases called
      have nothing := sound.wg.symm.trans allDone
      have perm := complete.resolve_right fun turnedAway => by cases turnedAway.2
      refine { sound with
        complete := .inl perm, within := trivial, room := fun _ => room (.inr rfl)
        done := fun returned => ?_ }
      have flushes : write.flushFails = false := by
        cases isFlush : write.flushFails with
        | false => rfl
        | true =>
          rw [isFlush] at returned
          cases returned
      refine ⟨flushes, eq_nil_of_length_eq_zero (Nat.eq_zero_of_add_eq_zero_right nothing), ?_⟩
      cases isMu : p.mu with
      | none => rfl
      | some holder =>
        rw [isMu] at nothing
        cases nothing
    · cases called
  · cases called

theorem Sound.lock {index : Nat} (sound : Sound write p) (locked : p.lock write index = .ok next) :
    Sound write next := by
  unfold Putter.lock at locked
  split at locked
  next enters =>
    obtain ⟨isFree, isStarted⟩ := enters
    have free : p.mu = none := Option.isNone_iff_eq_none.mp isFree
    have length : p.started.length = (p.started.erase index).length + 1 := by
      rw [length_erase_of_mem isStarted]
      exact (Nat.sub_add_cancel (length_pos_of_mem isStarted)).symm
    have chan := sound.chan
    have wg := sound.wg
    rw [free, length] at chan wg
    have perm : p.started.Perm (index :: p.started.erase index) := perm_cons_erase isStarted
    have notDone : p.caller ≠ .returned (.ok ()) := by
      intro returned
      rw [(sound.done returned).2.1] at isStarted
      exact not_mem_nil isStarted
    have noneRefused := sound.none_refused fun _ isMu => by cases free.symm.trans isMu
    split at locked
    next failing =>
      cases locked
      refine { sound with
        chan := chan, wg := wg, refused := ?_, silent := ?_, complete := ?_
        done := fun returned => absurd returned notDone }
      · intro other member
        rcases mem_append.mp member with earlier | isNew
        · exact sound.refused other earlier
        · rw [mem_singleton.mp isNew]
          exact failing
      · intro noError
        refine .inr ⟨index, rfl, ?_⟩
        rw [noneRefused noError, nil_append]
      · refine sound.complete.imp (fun all => List.Perm.trans ?_ all) id
        rw [← append_assoc, append_assoc _ [index]]
        exact perm.symm.append_left _
    next accepted =>
      cases locked
      refine { sound with
        chan := chan, wg := wg, received := ?_, complete := ?_
        silent := fun noError => .inl (noneRefused noError)
        done := fun returned => absurd returned notDone }
      · intro other member
        rcases mem_append.mp member with earlier | isNew
        · exact sound.received other earlier
        · rw [mem_singleton.mp isNew]
          exact Bool.eq_false_iff.mpr accepted
      · refine sound.complete.imp (fun all => List.Perm.trans ?_ all) id
        show (p.received ++ [index] ++ p.refused ++ p.started.erase index).Perm
          (p.received ++ p.refused ++ p.started)
        rw [append_assoc p.received, append_assoc p.received, append_assoc p.received]
        refine List.Perm.append_left _ ?_
        refine List.Perm.trans ?_ (perm.symm.append_left p.refused)
        exact perm_middle.symm
  · cases locked

theorem Sound.hold (sound : Sound write p) (held : p.hold write = .ok next) : Sound write next := by
  have notDone : ∀ {holder}, p.mu = some holder → p.caller ≠ .returned (.ok ()) := by
    intro holder isMu returned
    cases isMu.symm.trans (sound.done returned).2.2
  have chan := sound.chan
  have wg := sound.wg
  unfold Putter.hold at held
  split at held
  · cases held
  next index isMu =>
    cases held
    rw [isMu] at chan wg
    have before : (if write.failing index then some index else p.err) = none →
        write.failing index = false ∧ p.err = none := by
      intro noError
      split at noError
      · cases noError
      next accepted => exact ⟨Bool.eq_false_iff.mpr accepted, noError⟩
    refine { sound with
      chan := chan, wg := wg, silent := fun noError => .inl ?_, complete := ?_, room := ?_
      done := fun returned => absurd returned (notDone isMu) }
    · obtain ⟨accepted, wasNone⟩ := before noError
      rcases sound.silent wasNone with isEmpty | ⟨other, sameMu, isRefused⟩
      · exact isEmpty
      cases isMu.symm.trans sameMu
      have failing := sound.refused index (isRefused ▸ mem_cons_self)
      rw [accepted] at failing
      cases failing
    · refine sound.complete.imp id fun turnedAway => ⟨?_, turnedAway.2⟩
      split
      · rfl
      · exact turnedAway.1
    · rintro (noError | committed)
      · exact sound.room (.inl (before noError).2)
      · exact sound.room (.inr committed)
  next index isMu =>
    cases held
    rw [isMu] at chan wg
    have noneRefused := sound.none_refused fun _ sameMu => by cases isMu.symm.trans sameMu
    refine { sound with
      chan := ?_, wg := wg, silent := fun noError => .inl (noneRefused noError)
      done := fun returned => absurd returned (notDone isMu) }
    rw [chan]
    rfl
  next index isMu =>
    cases held
    rw [isMu] at chan wg
    have noneRefused := sound.none_refused fun _ sameMu => by cases isMu.symm.trans sameMu
    refine { sound with
      chan := chan, wg := ?_, silent := fun noError => .inl (noneRefused noError)
      done := fun returned => absurd returned (notDone isMu) }
    rw [wg]
    rfl

theorem Reached.sound (reached : Reached write p) : Sound write p := by
  refine Reach.invariant (motive := Sound write) (.newBatch write) ?_ reached
  intro state after step holds _ moved
  cases step with
  | call => exact holds.call moved
  | lock index => exact holds.lock moved
  | hold => exact holds.hold moved

end Putter

/-! ## When a batch of writes is faithful -/

namespace BatchWrite

variable {write : BatchWrite}

theorem failures_mono {few many : Nat} (le : few ≤ many) :
    write.failures few ≤ write.failures many :=
  ((range_sublist.mpr le).filter write.failing).length_le

theorem filterMap_range (pairs : List (Bytes × Bytes)) :
    (range pairs.length).filterMap (pairs[·]?) = pairs := by
  induction pairs with
  | nil => rfl
  | cons pair rest ih =>
    rw [length_cons, range_succ_eq_map, filterMap_cons, filterMap_map]
    exact congrArg (pair :: ·) ih

theorem puts_range : write.puts (range write.pairs.length) = write.pairs :=
  filterMap_range write.pairs

theorem faithful_iff_returned : write.Faithful ↔
    ∀ p, Putter.Reached write p → p.caller = .returned (.ok ()) → p.refused = [] ∧
      ∀ db : GoMap Bytes Bytes, db.setAll (write.puts p.received) = db.setAll write.pairs := by
  constructor
  · intro faithful p reached returned
    obtain ⟨same, refusal⟩ := faithful p _ reached returned
    refine ⟨?_, same rfl⟩
    by_contra some
    obtain ⟨error, isError⟩ := refusal some
    cases isError
  · intro holds p result reached returned
    cases result with
    | error error => exact ⟨nofun, fun _ => ⟨error, rfl⟩⟩
    | ok =>
      obtain ⟨noneRefused, same⟩ := holds p reached returned
      exact ⟨fun _ => same, fun some => absurd noneRefused some⟩

def Single (write : BatchWrite) : Prop :=
  (∀ index < write.pairs.length, write.failing index = false) ∧
    ∀ key value other, (key, value) ∈ write.pairs → (key, other) ∈ write.pairs → value = other

theorem Single.faithful (single : write.Single) : write.Faithful := by
  refine faithful_iff_returned.mpr fun p reached returned => ?_
  have sound := reached.sound
  have perm : (p.received ++ p.refused).Perm (range write.pairs.length) := by
    have complete := sound.complete
    rw [returned, (sound.done returned).2.1, append_nil] at complete
    exact complete.resolve_right fun turnedAway => by cases turnedAway.2
  have noneRefused : p.refused = [] := by
    refine eq_nil_iff_forall_not_mem.mpr fun index member => ?_
    have isPut := perm.mem_iff.mp (mem_append_right _ member)
    have accepted := single.1 index (mem_range.mp isPut)
    rw [sound.refused index member] at accepted
    cases accepted
  refine ⟨noneRefused, fun db => ?_⟩
  rw [noneRefused, append_nil] at perm
  have putAll : (write.puts p.received).Perm write.pairs := by
    have mapped : (write.puts p.received).Perm (write.puts (range write.pairs.length)) :=
      perm.filterMap _
    rwa [puts_range] at mapped
  refine (GoMap.setAll_perm db putAll.symm ?_).symm
  exact single.2

theorem Faithful.accepted (faithful : write.Faithful) (flushes : write.flushFails = false)
    (few : write.failures (write.pairs.length - 1) < Putter.writeConcurrence) :
    ∀ index < write.pairs.length, write.failing index = false := by
  intro index isPut
  obtain ⟨p, reached, returned, -, isRefused⟩ :=
    Putter.reached_delayed write.failing (fun _ => id)
      (fun count less => lt_of_le_of_lt (failures_mono (le_sub_one_of_lt less)) few) flushes
  have noneRefused := (faithful_iff_returned.mp faithful p reached returned).1
  by_contra failing
  have isFailing : write.failing index = true := Bool.eq_true_of_not_eq_false failing
  have member : index ∈ p.refused := by
    rw [isRefused]
    exact mem_filter.mpr
      ⟨mem_filter.mpr ⟨mem_range.mpr isPut, isFailing⟩, isFailing⟩
  rw [noneRefused] at member
  exact not_mem_nil member

theorem Faithful.last (faithful : write.Faithful) (flushes : write.flushFails = false)
    (accepted : ∀ index < write.pairs.length, write.failing index = false)
    {pair : Bytes × Bytes} (member : pair ∈ write.pairs) (db : GoMap Bytes Bytes) :
    (db.setAll write.pairs).get? pair.1 = some pair.2 := by
  obtain ⟨index, isPut, isPair⟩ := mem_iff_getElem.mp member
  let delay : Nat → Bool := fun other => other == index || write.failing other
  have onlyIndex : ∀ count ≤ write.pairs.length,
      (range count).filter delay = (range count).filter (· == index) := by
    intro count within
    refine filter_congr fun other inRange => ?_
    rw [show delay other = (other == index || write.failing other) from rfl,
      accepted other (lt_of_lt_of_le (mem_range.mp inRange) within), Bool.or_false]
  have room : ∀ count < write.pairs.length,
      ((range count).filter delay).length < Putter.writeConcurrence := by
    intro count less
    rw [onlyIndex count (le_of_lt less), filter_beq, length_replicate]
    exact lt_of_le_of_lt (nodup_iff_count_le_one.mp nodup_range index) (by decide)
  obtain ⟨p, reached, returned, isReceived, -⟩ :=
    Putter.reached_delayed delay (fun other failing => by simp [delay, failing]) room flushes
  have isLast : ((range write.pairs.length).filter delay).filter (!write.failing ·) =
      [index] := by
    rw [onlyIndex _ (le_refl _), filter_beq,
      count_eq_one_of_mem nodup_range (mem_range.mpr isPut)]
    simp [accepted index isPut]
  have same := (faithful_iff_returned.mp faithful p reached returned).2 db
  have putLast : write.puts [index] = [pair] := by simp [puts, isPut, isPair]
  rw [isReceived, isLast, puts, filterMap_append, ← puts, ← puts, putLast,
    GoMap.setAll_concat] at same
  rw [← same, GoMap.get?_set_self]

end BatchWrite

/-- Faithful exactly if the batch is refused, more puts before the last one are refused than fit
into the channel, or none is refused and no key is given two values. -/
theorem batched_writes_faithful_iff (write : BatchWrite) :
    write.Faithful ↔ write.flushFails = true ∨
      Putter.writeConcurrence ≤ write.failures (write.pairs.length - 1) ∨ write.Single := by
  constructor
  · intro faithful
    cases flushes : write.flushFails with
    | true => exact .inl rfl
    | false =>
      refine .inr ((lt_or_ge _ _).symm.imp id fun few => ?_)
      have accepted := faithful.accepted flushes few
      refine ⟨accepted, fun key value other isValue isOther => ?_⟩
      have first := faithful.last flushes accepted isValue ∅
      have second := faithful.last flushes accepted isOther ∅
      exact Option.some.inj (first.symm.trans second)
  · rintro (fails | many | single)
    · refine BatchWrite.faithful_iff_returned.mpr fun p reached returned => ?_
      have flushes := (reached.sound.done returned).1
      rw [fails] at flushes
      cases flushes
    · refine BatchWrite.faithful_iff_returned.mpr fun p reached returned => ?_
      have few := reached.sound.room
      rw [returned] at few
      exact absurd (few (.inr rfl)) (not_lt.mpr many)
    · exact single.faithful

/-- A put that is refused while `Write` waits: no error is returned and the pair is lost. -/
theorem refused_put_lost :
    ∃ p, Putter.Reached ⟨[([1], [2])], fun _ => true, false⟩ p ∧
      p.caller = .returned (.ok ()) ∧ p.refused = [0] ∧ p.received = [] :=
  ⟨_, Putter.reached_replay _ [.call, .call, .call, .lock 0, .hold, .hold, .hold, .call] rfl, rfl,
    rfl, rfl⟩

/-- Two values of one key, put in the other order. -/
example : ∃ p, Putter.Reached ⟨[([1], [2]), ([1], [3])], fun _ => false, false⟩ p ∧
    p.caller = .returned (.ok ()) ∧ p.received = [1, 0] :=
  ⟨_, Putter.reached_replay _ [.call, .call, .call, .call, .call, .lock 1, .hold, .hold, .hold,
    .lock 0, .hold, .hold, .hold, .call] rfl, rfl, rfl⟩

end AnnchainOG
