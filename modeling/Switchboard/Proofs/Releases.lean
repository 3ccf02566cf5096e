import Mathlib
import Switchboard.Proofs.Delivery

/-!
# Release of scheduled calls

Calls that wait are kept in the plain order of their times, while whether one is due is told by
wrapping differences.  The main theorem `releases` says what follows in every run, whether or not
the clock has wrapped around: a waiting call that the clock has reached always stands behind one
that it has not reached and that is for a plainly earlier time, and an accepted tick releases
exactly the calls in front of the first one that is not due.  Where the times that wait lie on one
side of the wrap-around (`OneSided`) the two orders agree; then no call is held that the clock has
reached, and a tick releases all calls that are due, in the wrapping order.

`held_across_wrap` is a run in which the orders disagree and a due call is held.
-/

namespace Switchboard

/-! ## Two orders of times -/

/-- Whether calls are in the plain order of their times. -/
def InPlainOrder (calls : List Call) : Prop :=
  calls.Pairwise fun c d => c.time.toInt ≤ d.time.toInt

/-- Whether calls are in the wrapping order of their times, the oldest first. -/
def InWrappingOrder (calls : List Call) : Prop :=
  calls.Pairwise fun c d => isLatest d.time c.time = true

/-- Whether the times of calls lie in an interval of length `2 ^ 63` in which the clock lies too,
when it is counted on or back by whole turns. -/
structure OneSided (lo : ℤ) (clock : Int64) (calls : List Call) : Prop where
  clock : ∃ turns : ℤ,
    lo ≤ clock.toInt + turns * 2 ^ 64 ∧ clock.toInt + turns * 2 ^ 64 < lo + 2 ^ 63
  calls : ∀ c ∈ calls, InSpan lo c.time

namespace OneSided

variable {lo : ℤ} {clock : Int64} {calls : List Call}

/-- A time that stands apart from the clock by less than half the range is reached when it is not
greater than the clock that was counted on. -/
lemma isLatest_iff (h : OneSided lo clock calls) :
    ∃ now : ℤ, ∀ c ∈ calls, isLatest clock c.time = true ↔ c.time.toInt ≤ now := by
  obtain ⟨turns, hlo, hhi⟩ := h.clock
  refine ⟨clock.toInt + turns * 2 ^ 64, fun c hc => ?_⟩
  obtain ⟨hc, hc'⟩ := h.calls c hc
  have hsub : (clock - c.time).toInt = clock.toInt + turns * 2 ^ 64 - c.time.toInt := by
    rw [Int64.toInt_sub]
    have hturns : (clock.toInt - c.time.toInt).bmod (2 ^ 64) =
        (clock.toInt + turns * 2 ^ 64 - c.time.toInt).bmod (2 ^ 64) := by
      have hadd : clock.toInt + turns * 2 ^ 64 - c.time.toInt =
          clock.toInt - c.time.toInt + ((2 ^ 64 : ℕ) : ℤ) * turns := by
        push_cast
        ring
      rw [hadd, Int.add_mul_bmod_self_left]
    rw [hturns]
    apply Int.bmod_eq_of_le_mul_two
    · norm_num at *
      omega
    · norm_num at *
      omega
  rw [isLatest, decide_eq_true_iff, Int64.le_iff_toInt_le, hsub, Int64.toInt_zero]
  omega

/-- Among times on one side of the wrap-around the plain order is the wrapping order. -/
lemma inWrappingOrder (h : OneSided lo clock calls) (hcalls : InPlainOrder calls) :
    InWrappingOrder calls := by
  refine List.Pairwise.imp_of_mem (fun {c d} hc hd hcd => ?_) hcalls
  rw [InSpan.isLatest_iff (h.calls d hd) (h.calls c hc)]
  exact hcd

end OneSided

/-! ## The scheduler -/

namespace Scheduler

/-- Scheduling keeps the plain order. -/
lemma inPlainOrder_schedule {s : Scheduler} (h : InPlainOrder s.calls) (c : Call) :
    InPlainOrder (s.schedule c).calls := by
  obtain ⟨front, back, hsplit, hinsert, hfront, hback⟩ := insertCall_split c s.calls
  rw [InPlainOrder, hsplit, List.pairwise_append] at h
  obtain ⟨hf, hb, hcross⟩ := h
  -- The first of the later calls is later than the new one, so all of them are.
  have hlater : ∀ d ∈ back, c.time.toInt ≤ d.time.toInt := by
    cases back with
    | nil => simp
    | cons e rest =>
      have he : c.time.toInt < e.time.toInt := hback e rfl
      intro d hd
      rcases List.mem_cons.mp hd with rfl | hd
      · exact he.le
      · exact he.le.trans ((List.pairwise_cons.mp hb).1 d hd)
  rw [InPlainOrder, schedule, hinsert, List.pairwise_append]
  refine ⟨hf, List.pairwise_cons.mpr ⟨hlater, hb⟩, ?_⟩
  intro a ha d hd
  rcases List.mem_cons.mp hd with rfl | hd
  · exact hfront a ha
  · exact hcross a ha d hd

/-- A scheduled call is the new one or waited before. -/
lemma mem_schedule {s : Scheduler} {c d : Call} :
    d ∈ (s.schedule c).calls ↔ d = c ∨ d ∈ s.calls := by
  obtain ⟨front, back, hsplit, hinsert, -, -⟩ := insertCall_split c s.calls
  rw [schedule, hinsert, hsplit]
  simp only [List.mem_append, List.mem_cons]
  tauto

/-- What is released and what is kept are all calls that wait. -/
lemma release_append (s : Scheduler) (now : Int64) :
    (s.release now).1 ++ (s.release now).2.calls = s.calls := List.takeWhile_append_dropWhile

/-- What is released is due. -/
lemma isLatest_of_mem_release {s : Scheduler} {now : Int64} {c : Call}
    (h : c ∈ (s.release now).1) : isLatest now c.time = true :=
  List.mem_takeWhile_imp (p := fun c : Call => isLatest now c.time) h

/-- The first call that is kept is not due. -/
lemma not_isLatest_head {s : Scheduler} {now : Int64} {c : Call} {rest : List Call}
    (h : (s.release now).2.calls = c :: rest) : isLatest now c.time = false := by
  have hdrop : s.calls.dropWhile (fun c => isLatest now c.time) = c :: rest := h
  have hne : s.calls.dropWhile (fun c => isLatest now c.time) ≠ [] := by
    rw [hdrop]
    exact List.cons_ne_nil c rest
  have hnot := List.head_dropWhile_not (fun c : Call => isLatest now c.time) hne
  simpa only [hdrop, List.head_cons] using hnot

/-- A due call that is kept stands behind one that is not due. -/
lemma hidden_of_release {s : Scheduler} (h : InPlainOrder s.calls) {now : Int64} {c : Call}
    (hc : c ∈ (s.release now).2.calls) :
    ∃ d ∈ (s.release now).2.calls, d.time.toInt ≤ c.time.toInt ∧ isLatest now d.time = false := by
  rw [InPlainOrder, ← release_append s now, List.pairwise_append] at h
  cases hkept : (s.release now).2.calls with
  | nil =>
    rw [hkept] at hc
    contradiction
  | cons d rest =>
    rw [hkept] at h hc
    refine ⟨d, List.mem_cons_self, ?_, not_isLatest_head hkept⟩
    rcases List.mem_cons.mp hc with rfl | hc
    · exact le_rfl
    · exact (List.pairwise_cons.mp h.2.1).1 c hc

end Scheduler

/-! ## Runs -/

namespace Traffic

/-- How calls wait: in plain order, and what the clock has reached only behind what it has not
reached. -/
structure Punctual (t : Traffic) : Prop where
  ordered : InPlainOrder t.scheduler.calls
  hidden : ∀ c ∈ t.scheduler.calls, isLatest t.time c.time = true →
    ∃ d ∈ t.scheduler.calls, d.time.toInt ≤ c.time.toInt ∧ isLatest t.time d.time = false

/-- A time that is newer than another one is not reached by it. -/
lemma not_isLatest_of_isAfter {a b : Int64} (h : isAfter a b = true) : isLatest b a = false := by
  rw [isAfter, decide_eq_true_iff, Int64.lt_iff_toInt_lt, Int64.toInt_zero] at h
  rw [isLatest, decide_eq_false_iff_not, Int64.le_iff_toInt_le, ← Int64.neg_sub, Int64.toInt_neg,
    Int64.toInt_zero]
  have hlt := Int64.toInt_lt (a - b)
  have hflip : (-(a - b).toInt).bmod (2 ^ 64) = -(a - b).toInt := by
    apply Int.bmod_eq_of_le_mul_two
    · norm_num at *
      omega
    · norm_num at *
      omega
  omega

namespace Punctual

variable {t u : Traffic}

/-- A call that is sent is scheduled only when the clock has not reached it. -/
lemma send (h : t.Punctual) (c : Call) : (t.send c).Punctual := by
  unfold Traffic.send
  split
  · rename_i hafter
    refine ⟨Scheduler.inPlainOrder_schedule h.ordered c, fun d hd hdue => ?_⟩
    rcases Scheduler.mem_schedule.mp hd with rfl | hd
    · have hnot := not_isLatest_of_isAfter hafter
      rw [hnot] at hdue
      contradiction
    · obtain ⟨e, he, hle, hnot⟩ := h.hidden d hd hdue
      exact ⟨e, Scheduler.mem_schedule.mpr (.inr he), hle, hnot⟩
  · exact ⟨h.ordered, h.hidden⟩

/-- Calls that are sent. -/
lemma sendAll (h : t.Punctual) (cs : List Call) : (t.sendAll cs).Punctual := by
  induction cs generalizing t with
  | nil => exact h
  | cons c cs ih => exact ih (h.send c)

/-- When the clock advances, calls are released up to the first that is not due. -/
lemma advance (h : t.Punctual) (time : Int64) : (t.advance time).Punctual := by
  refine ⟨?_, fun c hc _ => Scheduler.hidden_of_release h.ordered hc⟩
  have hordered := h.ordered
  rw [InPlainOrder, ← Scheduler.release_append t.scheduler time, List.pairwise_append] at hordered
  exact hordered.2.1

/-- Every step keeps waiting calls so. -/
lemma step (h : t.Punctual) (hstep : Step t u) : u.Punctual := by
  cases hstep with
  | @exchange l cs _ =>
    have hledger : { t with ledger := l }.Punctual := ⟨h.ordered, h.hidden⟩
    exact hledger.sendAll cs
  | take _ => exact ⟨h.ordered, h.hidden⟩
  | advance _ => exact h.advance _

/-- Steps keep waiting calls so. -/
lemma steps (h : t.Punctual) (hsteps : Steps t u) : u.Punctual := by
  induction hsteps with
  | refl => exact h
  | tail _ hlast ih => exact ih.step hlast

/-- Among times on one side of the wrap-around the clock has reached none. -/
lemma not_isLatest (h : t.Punctual) {lo : ℤ} (hside : OneSided lo t.time t.scheduler.calls)
    {c : Call} (hc : c ∈ t.scheduler.calls) : isLatest t.time c.time = false := by
  by_contra hdue
  rw [Bool.not_eq_false] at hdue
  obtain ⟨d, hd, hle, hnot⟩ := h.hidden c hc hdue
  obtain ⟨now, hnow⟩ := hside.isLatest_iff
  have hreached : isLatest t.time d.time = true :=
    (hnow d hd).mpr (hle.trans ((hnow c hc).mp hdue))
  rw [hnot] at hreached
  contradiction

end Punctual

end Traffic

namespace Root

/-- In every run waiting calls are in plain order, and what the clock has reached is hidden. -/
lemma Reachable.punctual {r : Root} (h : Reachable r) : r.traffic.Punctual := by
  refine h.induction (P := fun r => r.traffic.Punctual) ?_ ?_ ?_ ?_
  · exact fun r s hchange hr => hr.steps hchange.traffic_steps
  · intro r c _ hr
    rw [traffic_send]
    exact hr.send c
  · exact fun r c kind args a l _ _ hr => ⟨hr.ordered, hr.hidden⟩
  · intro config catalog r hnew
    obtain ⟨address, -, rfl⟩ := new_eq_ok hnew
    exact ⟨List.Pairwise.nil, fun c hc => by contradiction⟩

/-- What a tick to a newer time does with the calls that wait: it is accepted, releases some to the
end of the queue and keeps the others, and then units have their ticks and a pass is made. -/
structure Releases (r : Root) (time : Int64) (released kept : List Call) : Prop where
  accepted : (r.tick time).1 = true
  split : r.scheduler.calls = released ++ kept
  changes : ∃ s : Root, s.time = time ∧ s.queue = r.queue ++ released ∧ s.scheduler.calls = kept ∧
    Change r s ∧ Changes s (r.tick time).2
  due : ∀ c ∈ released, isLatest time c.time = true
  hidden : ∀ c ∈ kept, isLatest time c.time = true →
    ∃ d ∈ kept, d.time.toInt ≤ c.time.toInt ∧ isLatest time d.time = false
  /-- On one side of the wrap-around everything that is due is released, the oldest first. -/
  complete : ∀ lo, OneSided lo time r.scheduler.calls →
    released = r.scheduler.calls.filter (fun c => isLatest time c.time) ∧ InWrappingOrder released

/-- A tick to a newer time, from a root whose calls wait in plain order. -/
lemma releases_of_punctual {r : Root} (h : r.traffic.Punctual) {time : Int64}
    (hafter : isAfter time r.time = true) : ∃ released kept, r.Releases time released kept := by
  have htick : r.clock.tick? time = some { r.clock with time := time } := if_pos hafter
  have hadvanced := h.advance time
  have hsplit := Scheduler.release_append r.scheduler time
  refine ⟨(r.scheduler.release time).1, (r.scheduler.release time).2.calls, ?_, hsplit.symm, ?_,
    fun c hc => Scheduler.isLatest_of_mem_release hc, hadvanced.hidden, ?_⟩
  · unfold tick
    rw [htick]
  · refine ⟨r.advance { r.clock with time := time }, rfl, rfl, rfl, .advance htick, ?_⟩
    unfold tick
    rw [htick]
    simp only
    split
    · have hticked := (chores_actAll (r.advance { r.clock with time := time })
        r.clock.listeners .tick).deeds.changes
      exact hticked.trans (rounds_runUntilIdle _).deeds.changes
    · exact (rounds_runUntilIdle _).deeds.changes
  · intro lo hside
    have hkept : OneSided lo time (r.scheduler.release time).2.calls :=
      ⟨hside.clock, fun c hc => hside.calls c (hsplit ▸ List.mem_append_right _ hc)⟩
    have hreleased : OneSided lo time (r.scheduler.release time).1 :=
      ⟨hside.clock, fun c hc => hside.calls c (hsplit ▸ List.mem_append_left _ hc)⟩
    have hordered := h.ordered
    rw [InPlainOrder, Traffic.scheduler, traffic, ← hsplit, List.pairwise_append] at hordered
    refine ⟨?_, hreleased.inWrappingOrder hordered.1⟩
    rw [← hsplit]
    rw [List.filter_append,
      List.filter_eq_self.mpr fun c hc => Scheduler.isLatest_of_mem_release hc,
      List.filter_eq_nil_iff.mpr fun c hc => by
        have hnot : isLatest time c.time = false := hadvanced.not_isLatest hkept hc
        rw [hnot]
        exact Bool.false_ne_true,
      List.append_nil]

/-- Release of scheduled calls.  At every moment of a run, also in the middle of an operation and
after the clock has wrapped around, calls wait in the plain order of their times, and one that the
clock has reached waits only behind one for a plainly earlier time that it has not reached.  If the
times that wait lie on one side of the wrap-around, the clock has reached none of them.  A tick to a
newer time releases the calls that are due up to the first that is not; if the times lie on one
side, these are all calls that are due, the oldest first. -/
theorem releases {r s : Root} (h : Reachable r) (hs : Changes r s) :
    s.traffic.Punctual ∧
      (∀ lo, OneSided lo s.time s.scheduler.calls →
        ∀ c ∈ s.scheduler.calls, isLatest s.time c.time = false) ∧
      ∀ time, isAfter time s.time = true → ∃ released kept, s.Releases time released kept := by
  have hpunctual : s.traffic.Punctual := h.punctual.steps hs.traffic_steps
  exact ⟨hpunctual, fun lo hside c hc => hpunctual.not_isLatest hside hc,
    fun time hafter => releases_of_punctual hpunctual hafter⟩

/-- A call for a time before the wrap-around. -/
def callBeforeWrap : Call := ⟨1, none, ⟨rootPath, hostId⟩, 9223372036854775802, .quiet, []⟩

/-- A call for a time after the wrap-around, eleven later than `callBeforeWrap`. -/
def callAfterWrap : Call := ⟨2, none, ⟨rootPath, hostId⟩, -9223372036854775803, .quiet, []⟩

/-- A root whose clock is a little before the wrap-around and for which calls wait. -/
def nearWrap (r : Root) (calls : List Call) : Root :=
  calls.foldl (fun r c => (Operation.send c).run r) ((Operation.tick 9223372036854775797).run r)

/-- Calls of the host that are no answers may be sent near the wrap-around. -/
lemma Reachable.nearWrap {r : Root} (h : Reachable r) {calls : List Call}
    (hcalls : ∀ c ∈ calls, c.isResponse = false) : Reachable (r.nearWrap calls) := by
  have hsend : ∀ {s : Root}, Reachable s → ∀ cs : List Call, (∀ c ∈ cs, c.isResponse = false) →
      Reachable (cs.foldl (fun r c => (Operation.send c).run r) s) := by
    intro s hs cs
    induction cs generalizing s with
    | nil => exact fun _ => hs
    | cons c cs ih =>
      intro hcs
      have hsent : Reachable ((Operation.send c).run s) := by
        refine .operate hs fun hc => ?_
        rw [hcs c List.mem_cons_self] at hc
        contradiction
      exact ih hsent fun d hd => hcs d (List.mem_cons_of_mem c hd)
  exact hsend (.operate (o := .tick _) h trivial) calls hcalls

/-- A call for a time after the wrap-around, two earlier than `callAfterWrap`. -/
def callSoonAfterWrap : Call :=
  ⟨3, none, ⟨rootPath, hostId⟩, -9223372036854775805, .quiet, []⟩

/-- A call for a time after the wrap-around, four later than `callAfterWrap`. -/
def callLongAfterWrap : Call :=
  ⟨4, none, ⟨rootPath, hostId⟩, -9223372036854775799, .quiet, []⟩

/-- Of three calls for times after the wrap-around, a clock that has wrapped around releases the two
that it has reached, the older one first although it was sent last. -/
theorem releases_after_wrap :
    ∃ r, Root.new {} .base = .ok r ∧
      let s := r.nearWrap [callAfterWrap, callLongAfterWrap, callSoonAfterWrap]
      isAfter (-9223372036854775801) s.time = true ∧
      OneSided (-9223372036854775808) (-9223372036854775801) s.scheduler.calls ∧
      s.Releases (-9223372036854775801) [callSoonAfterWrap, callAfterWrap]
        [callLongAfterWrap] := by
  obtain ⟨r, hr⟩ : ∃ r, Root.new {} .base = .ok r := ⟨_, rfl⟩
  refine ⟨r, hr, ?_⟩
  intro s
  have hreach : Reachable s := (Reachable.new hr).nearWrap
    (by simp [callAfterWrap, callLongAfterWrap, callSoonAfterWrap, Call.isResponse])
  have htime : s.time = 9223372036854775797 := by
    cases hr
    rfl
  have hcalls : s.scheduler.calls = [callSoonAfterWrap, callAfterWrap, callLongAfterWrap] := by
    cases hr
    rfl
  clear_value s
  have hafter : isAfter (-9223372036854775801) s.time = true := by
    rw [htime]
    decide
  have hside : OneSided (-9223372036854775808) (-9223372036854775801) s.scheduler.calls := by
    rw [hcalls]
    exact ⟨⟨0, by decide⟩,
      by simp [InSpan, callSoonAfterWrap, callAfterWrap, callLongAfterWrap]⟩
  obtain ⟨released, kept, hreleases⟩ := (releases hreach (.refl _)).2.2 _ hafter
  have hreleased := (hreleases.complete _ hside).1
  have hsplit := hreleases.split
  rw [hcalls] at hreleased hsplit
  have htwo : released = [callSoonAfterWrap, callAfterWrap] := hreleased
  subst htwo
  have hone : [callLongAfterWrap] = kept := List.append_cancel_left
    (show [callSoonAfterWrap, callAfterWrap] ++ [callLongAfterWrap] = _ ++ kept from hsplit)
  subst hone
  exact ⟨hafter, hside, hreleases⟩

/-- Two calls wait, one for a time before the wrap-around and one for a time after it.  The clock
comes to a time between them, and both are still held, since in plain order the one that is not due
stands in front. -/
theorem held_across_wrap :
    ∃ r, Root.new {} .base = .ok r ∧
      let s := (Operation.tick 9223372036854775804).run
        (r.nearWrap [callBeforeWrap, callAfterWrap])
      Reachable s ∧ s.time = 9223372036854775804 ∧
        s.scheduler.calls = [callAfterWrap, callBeforeWrap] ∧
        isLatest s.time callBeforeWrap.time = true := by
  obtain ⟨r, hr⟩ : ∃ r, Root.new {} .base = .ok r := ⟨_, rfl⟩
  have hreach : Reachable (r.nearWrap [callBeforeWrap, callAfterWrap]) :=
    (Reachable.new hr).nearWrap (by simp [callBeforeWrap, callAfterWrap, Call.isResponse])
  have htime : ((Operation.tick 9223372036854775804).run
      (r.nearWrap [callBeforeWrap, callAfterWrap])).time = 9223372036854775804 := by
    cases hr
    rfl
  refine ⟨r, hr, .operate (o := .tick _) hreach trivial, htime, ?_, ?_⟩
  · cases hr
    rfl
  · rw [htime]
    decide

end Root

end Switchboard
