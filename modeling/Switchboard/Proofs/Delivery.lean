import Mathlib
import Switchboard.Proofs.Traffic

/-!
# Delivery of calls

The main theorem `delivery` is about all calls of a run, each with the number under which it was
sent.  As long as all times lie in one interval shorter than half the range of the clock, every call
is in one place, once; none is dispatched ahead of its time; and a call is dispatched only after all
calls that were sent before it and are not for a later time.

The invariant is `Traffic.Orderly`.  Calls are never queued ahead of their time and never scheduled
when they are due, the scheduler is sorted by time and then by number, and among the dispatched and
the queued calls none has overtaken another that was sent before and is not for a later time.
-/

namespace Switchboard

/-! ## Times -/

/-- Whether a time lies in the interval of length `2 ^ 63` above a bound. -/
def InSpan (lo : ℤ) (time : Int64) : Prop := lo ≤ time.toInt ∧ time.toInt < lo + 2 ^ 63

instance (lo : ℤ) (time : Int64) : Decidable (InSpan lo time) :=
  inferInstanceAs (Decidable (_ ∧ _))

namespace InSpan

variable {lo : ℤ} {a b : Int64}

/-- Within an interval differences do not wrap around. -/
lemma toInt_sub (ha : InSpan lo a) (hb : InSpan lo b) : (a - b).toInt = a.toInt - b.toInt := by
  obtain ⟨ha, ha'⟩ := ha
  obtain ⟨hb, hb'⟩ := hb
  rw [Int64.toInt_sub]
  apply Int.bmod_eq_of_le_mul_two
  · norm_num at *
    omega
  · norm_num at *
    omega

/-- Within an interval a time is newer where it is greater. -/
lemma isAfter_iff (ha : InSpan lo a) (hb : InSpan lo b) :
    isAfter a b = true ↔ b.toInt < a.toInt := by
  rw [isAfter, decide_eq_true_iff, Int64.lt_iff_toInt_lt, toInt_sub ha hb, Int64.toInt_zero]
  omega

/-- Within an interval a time is not older where it is not less. -/
lemma isLatest_iff (ha : InSpan lo a) (hb : InSpan lo b) :
    isLatest a b = true ↔ b.toInt ≤ a.toInt := by
  rw [isLatest, decide_eq_true_iff, Int64.le_iff_toInt_le, toInt_sub ha hb, Int64.toInt_zero]
  omega

end InSpan

/-! ## The scheduler -/

/-- A call is put behind calls that are not for a later time and in front of one that is. -/
lemma Scheduler.insertCall_split (c : Call) (calls : List Call) :
    ∃ front back, calls = front ++ back ∧ insertCall c calls = front ++ c :: back ∧
      (∀ d ∈ front, d.time.toInt ≤ c.time.toInt) ∧
      ∀ d ∈ back.head?, c.time.toInt < d.time.toInt := by
  induction calls with
  | nil => exact ⟨[], [], rfl, rfl, by simp, by simp⟩
  | cons d rest ih =>
    by_cases h : c.time < d.time
    · refine ⟨[], d :: rest, rfl, by simp [insertCall, h], by simp, ?_⟩
      intro e he
      cases he
      exact Int64.lt_iff_toInt_lt.mp h
    · obtain ⟨front, back, hsplit, hinsert, hfront, hback⟩ := ih
      refine ⟨d :: front, back, by rw [hsplit]; rfl, by simp [insertCall, h, hinsert], ?_, hback⟩
      intro e he
      rcases List.mem_cons.mp he with rfl | he
      · rw [Int64.lt_iff_toInt_lt] at h
        omega
      · exact hfront e he

/-! ## Calls with numbers -/

/-- All calls that were handed over to be sent, in order and numbered from zero. -/
def History.sent (h : History) : List (Call × ℕ) := h.posted.reverse.zipIdx

/-- The next call has the next number. -/
lemma History.sent_cons (h : History) (c : Call) :
    ({ h with posted := c :: h.posted } : History).sent = h.sent ++ [(c, h.posted.length)] := by
  simp [History.sent, List.zipIdx_append]

/-- The number of a call is less than the number of calls. -/
lemma History.number_lt {h : History} {e : Call × ℕ} (he : e ∈ h.sent) :
    e.2 < h.posted.length := by
  have hlt := List.snd_lt_of_mem_zipIdx he
  simpa using hlt

/-- Whether all times of a history lie in an interval. -/
structure History.Within (h : History) (lo : ℤ) : Prop where
  clock : ∀ time ∈ h.times, InSpan lo time
  calls : ∀ c ∈ h.posted, InSpan lo c.time

/-- The time of a numbered call. -/
def timeOf (e : Call × ℕ) : ℤ := e.1.time.toInt

/-- Whether a call was sent before another one and is not for a later time, so that it has to be
dispatched first. -/
def Precedes (a b : Call × ℕ) : Prop := a.2 < b.2 ∧ timeOf a ≤ timeOf b

/-- Whether a scheduled call is for an earlier time than another one, or was sent before it for the
same time. -/
def Earlier (a b : Call × ℕ) : Prop := timeOf a < timeOf b ∨ timeOf a = timeOf b ∧ a.2 < b.2

/-- When the first of some sorted calls is for a later time, all of them are. -/
lemma later_of_head {s : List (Call × ℕ)} (hs : s.Pairwise Earlier) {time : ℤ}
    (hhead : ∀ e, s.head? = some e → time < timeOf e) : ∀ e ∈ s, time < timeOf e := by
  cases s with
  | nil => simp
  | cons x rest =>
    have hx := hhead x rfl
    intro e he
    rcases List.mem_cons.mp he with rfl | he
    · exact hx
    · rcases (List.pairwise_cons.mp hs).1 e he with hxe | hxe
      · exact hx.trans hxe
      · rw [← hxe.1]
        exact hx

/-- Among sorted calls, those that are due stand in front of the others. -/
lemma due_of_sorted {s : List (Call × ℕ)} (hs : s.Pairwise Earlier) {time : Int64}
    (hdue : ∀ e ∈ s, isLatest time e.1.time = true ↔ timeOf e ≤ time.toInt) :
    (∀ e ∈ s.takeWhile fun e => isLatest time e.1.time, timeOf e ≤ time.toInt) ∧
      ∀ e ∈ s.dropWhile fun e => isLatest time e.1.time, time.toInt < timeOf e := by
  constructor
  · intro e he
    have hlatest := List.mem_takeWhile_imp (p := fun e : Call × ℕ => isLatest time e.1.time) he
    exact (hdue e ((List.takeWhile_sublist _).subset he)).mp hlatest
  · refine later_of_head (hs.sublist (List.dropWhile_sublist _)) fun x hx => ?_
    have hmem : x ∈ s := (List.dropWhile_sublist _).subset (List.mem_of_head? hx)
    have hnot := List.head?_dropWhile_not (fun e : Call × ℕ => isLatest time e.1.time) s
    rw [hx] at hnot
    rw [← not_le, ← hdue x hmem, hnot]
    exact Bool.false_ne_true

namespace Traffic

/-- Where calls are: those dispatched, those queued and those scheduled, with their numbers. -/
structure Orderly (t : Traffic) (d q s : List (Call × ℕ)) : Prop where
  dispatched : d.map Prod.fst = t.history.dispatched.reverse.map Prod.fst
  queued : q.map Prod.fst = t.queue
  scheduled : s.map Prod.fst = t.scheduler.calls
  once : (d ++ q ++ s).Perm t.history.sent
  timely : ∀ e ∈ t.history.dispatched, e.1.time.toInt ≤ e.2.toInt
  due : ∀ e ∈ d ++ q, timeOf e ≤ t.time.toInt
  ahead : ∀ e ∈ s, t.time.toInt < timeOf e
  straight : (d ++ q).Pairwise fun a b => ¬Precedes b a
  sorted : s.Pairwise Earlier

namespace Orderly

variable {t : Traffic} {d q s : List (Call × ℕ)} {lo : ℤ}

/-- Every call that is somewhere was sent. -/
lemma mem_sent (h : t.Orderly d q s) {e : Call × ℕ} (he : e ∈ d ++ q ++ s) :
    e ∈ t.history.sent := h.once.mem_iff.mp he

/-- A call that is sent now does not precede one that was sent before. -/
lemma not_precedes_new (h : t.Orderly d q s) {a : Call × ℕ} (ha : a ∈ d ++ q ++ s) (c : Call) :
    ¬Precedes (c, t.history.posted.length) a := by
  intro hp
  have hlt := History.number_lt (h.mem_sent ha)
  have hn := hp.1
  simp only at hn
  omega

/-- Other ledgers and steps of them leave calls where they are. -/
lemma ledger (h : t.Orderly d q s) (l : Ledger) : { t with ledger := l }.Orderly d q s :=
  ⟨h.dispatched, h.queued, h.scheduled, h.once, h.timely, h.due, h.ahead, h.straight, h.sorted⟩

/-- A call that is due when it is sent is queued behind all others. -/
lemma queue (h : t.Orderly d q s) {c : Call} (hc : c.time.toInt ≤ t.time.toInt) :
    Orderly { t with
      queue := t.queue ++ [c], history := { t.history with posted := c :: t.history.posted } }
      d (q ++ [(c, t.history.posted.length)]) s where
  dispatched := h.dispatched
  queued := by rw [List.map_append, h.queued]; rfl
  scheduled := h.scheduled
  once := by
    rw [History.sent_cons]
    have hswap : (d ++ (q ++ [(c, t.history.posted.length)]) ++ s).Perm
        (d ++ q ++ s ++ [(c, t.history.posted.length)]) := by
      simp only [List.append_assoc]
      refine List.Perm.append_left d (List.Perm.append_left q ?_)
      exact List.perm_append_comm
    exact hswap.trans (h.once.append_right _)
  timely := h.timely
  due := by
    intro e he
    rw [← List.append_assoc] at he
    rcases List.mem_append.mp he with he | he
    · exact h.due e he
    · rw [List.mem_singleton.mp he]
      exact hc
  ahead := h.ahead
  straight := by
    rw [← List.append_assoc, List.pairwise_append]
    refine ⟨h.straight, List.pairwise_singleton _ _, ?_⟩
    intro a ha b hb
    rw [List.mem_singleton.mp hb]
    exact h.not_precedes_new (List.mem_append_left s ha) c
  sorted := h.sorted

/-- A call that is sent ahead of its time is scheduled in its place. -/
lemma schedule (h : t.Orderly d q s) {c : Call} (hc : t.time.toInt < c.time.toInt) :
    ∃ s', Orderly { t with
      scheduler := t.scheduler.schedule c
      history := { t.history with posted := c :: t.history.posted } } d q s' := by
  obtain ⟨front, back, hsplit, hinsert, hfront, hback⟩ :=
    Scheduler.insertCall_split c t.scheduler.calls
  rw [← h.scheduled] at hsplit
  obtain ⟨s₁, s₂, hs, hs₁, hs₂⟩ := List.map_eq_append_iff.mp hsplit
  subst hs hs₁ hs₂
  have hsorted := List.pairwise_append.mp h.sorted
  have hnumber : ∀ e ∈ s₁ ++ s₂, e.2 < t.history.posted.length := fun e he =>
    History.number_lt (h.mem_sent (List.mem_append_right (d ++ q) he))
  -- Behind the call are only calls for later times, since the first of them is for a later one.
  have hlater : ∀ e ∈ s₂, c.time.toInt < timeOf e := by
    refine later_of_head hsorted.2.1 fun x hx => hback x.1 ?_
    rw [List.head?_map, hx]
    rfl
  refine ⟨s₁ ++ (c, t.history.posted.length) :: s₂, ?_⟩
  constructor
  case dispatched => exact h.dispatched
  case queued => exact h.queued
  case scheduled =>
    rw [List.map_append, List.map_cons]
    exact hinsert.symm
  case once =>
    rw [History.sent_cons]
    have hswap : (d ++ q ++ (s₁ ++ (c, t.history.posted.length) :: s₂)).Perm
        (d ++ q ++ (s₁ ++ s₂) ++ [(c, t.history.posted.length)]) := by
      rw [List.append_assoc (d ++ q)]
      refine List.Perm.append_left (d ++ q) ?_
      rw [List.append_assoc]
      exact List.Perm.append_left s₁ (List.perm_append_singleton _ s₂).symm
    exact hswap.trans (h.once.append_right _)
  case timely => exact h.timely
  case due => exact h.due
  case ahead =>
    intro e he
    rcases List.mem_append.mp he with he | he
    · exact h.ahead e (List.mem_append_left s₂ he)
    · rcases List.mem_cons.mp he with rfl | he
      · exact hc
      · exact h.ahead e (List.mem_append_right s₁ he)
  case straight => exact h.straight
  case sorted =>
    rw [List.pairwise_append]
    refine ⟨hsorted.1, List.pairwise_cons.mpr ⟨fun e he => .inl (hlater e he), hsorted.2.1⟩, ?_⟩
    intro a ha b hb
    rcases List.mem_cons.mp hb with rfl | hb
    · have hle : timeOf a ≤ c.time.toInt := hfront a.1 (List.mem_map_of_mem ha)
      have hlt := hnumber a (List.mem_append_left s₂ ha)
      rcases hle.lt_or_eq with hle | hle
      · exact .inl hle
      · exact .inr ⟨hle, hlt⟩
    · exact hsorted.2.2 a ha b hb

/-- A call that is taken from the front of the queue is dispatched when it is due. -/
lemma take (h : t.Orderly d q s) {c : Call} {rest : List Call} (hq : t.queue = c :: rest) :
    ∃ d' q', (t.take c rest).Orderly d' q' s := by
  cases q with
  | nil =>
    have hnil := h.queued
    rw [hq] at hnil
    contradiction
  | cons x q =>
    have hqueued := h.queued
    rw [hq, List.map_cons, List.cons.injEq] at hqueued
    obtain ⟨hx, hrest⟩ := hqueued
    have happend : d ++ [x] ++ q = d ++ x :: q := by simp
    refine ⟨d ++ [x], q, ?_⟩
    constructor
    case dispatched =>
      rw [List.map_append, h.dispatched]
      simp [Traffic.take, hx]
    case queued => exact hrest
    case scheduled => exact h.scheduled
    case once =>
      rw [happend]
      exact h.once
    case timely =>
      intro e he
      rcases List.mem_cons.mp he with rfl | he
      · have hdue := h.due x (by simp)
        rw [timeOf, hx] at hdue
        exact hdue
      · exact h.timely e he
    case due =>
      rw [happend]
      exact h.due
    case ahead => exact h.ahead
    case straight =>
      rw [happend]
      exact h.straight
    case sorted => exact h.sorted

/-- When the clock advances, the calls that are due move from the scheduler to the queue. -/
lemma advance (h : t.Orderly d q s) {time : Int64} (hafter : t.time.toInt < time.toInt)
    (hdue : ∀ e ∈ s, isLatest time e.1.time = true ↔ timeOf e ≤ time.toInt) :
    ∃ q' s', (t.advance time).Orderly d q' s' := by
  -- The calls that are due, with their numbers, and the others.
  obtain ⟨htaken, hleft⟩ := due_of_sorted h.sorted hdue
  have hsplit : s.takeWhile (fun e => isLatest time e.1.time) ++
      s.dropWhile (fun e => isLatest time e.1.time) = s := List.takeWhile_append_dropWhile
  generalize hs₁ : s.takeWhile (fun e => isLatest time e.1.time) = s₁ at hsplit htaken
  generalize hs₂ : s.dropWhile (fun e => isLatest time e.1.time) = s₂ at hsplit hleft
  have hreleased : s₁.map Prod.fst = (t.scheduler.release time).1 := by
    rw [Scheduler.release, ← h.scheduled, List.takeWhile_map, ← hs₁]
    rfl
  have hkept : s₂.map Prod.fst = (t.scheduler.release time).2.calls := by
    rw [Scheduler.release, ← h.scheduled, List.dropWhile_map, ← hs₂]
    rfl
  have hsorted := h.sorted
  rw [← hsplit] at hsorted
  have hpair := List.pairwise_append.mp hsorted
  refine ⟨q ++ s₁, s₂, ?_⟩
  constructor
  case dispatched => exact h.dispatched
  case queued =>
    rw [List.map_append, h.queued, hreleased]
    rfl
  case scheduled => exact hkept
  case once =>
    have hassoc : d ++ (q ++ s₁) ++ s₂ = d ++ q ++ s := by
      rw [← hsplit]
      simp
    rw [hassoc]
    exact h.once
  case timely => exact h.timely
  case due =>
    intro e he
    rw [← List.append_assoc] at he
    rcases List.mem_append.mp he with he | he
    · have hold := h.due e he
      exact hold.trans hafter.le
    · exact htaken e he
  case ahead => exact hleft
  case straight =>
    rw [← List.append_assoc, List.pairwise_append]
    refine ⟨h.straight, hpair.1.imp ?_, ?_⟩
    · intro a b hab hp
      obtain ⟨hnumber, htime⟩ := hp
      rcases hab with hab | hab
      · omega
      · omega
    · intro a ha b hb hp
      have hold := h.due a ha
      have hnew := h.ahead b (by rw [← hsplit]; exact List.mem_append_left s₂ hb)
      have htime := hp.2
      omega
  case sorted => exact hpair.2.1

/-- No call is dispatched before another one that precedes it. -/
lemma mem_before (h : t.Orderly d q s) {before after : List (Call × ℕ)} {a b : Call × ℕ}
    (hd : d = before ++ b :: after) (ha : a ∈ t.history.sent) (hab : Precedes a b) :
    a ∈ before := by
  obtain ⟨hnumber, htime⟩ := hab
  have hplace := h.once.mem_iff.mpr ha
  have hb : b ∈ d := by
    rw [hd]
    simp
  rcases List.mem_append.mp hplace with hplace | hplace
  · have hstraight := h.straight
    rw [hd, List.append_assoc, List.cons_append] at hstraight hplace
    have hbehind := (List.pairwise_cons.mp (List.pairwise_append.mp hstraight).2.1).1
    rcases List.mem_append.mp hplace with hplace | hplace
    · exact hplace
    · rcases List.mem_cons.mp hplace with rfl | hplace
      · omega
      · exact absurd ⟨hnumber, htime⟩ (hbehind a hplace)
  · -- A scheduled call is for a later time than any that was dispatched.
    have hahead := h.ahead a hplace
    have hdue := h.due b (List.mem_append_left q hb)
    omega

end Orderly

/-! ## Runs -/

/-- As long as all times lie in an interval, every call is in its place. -/
structure Sound (t : Traffic) : Prop where
  clock : t.time ∈ t.history.times
  orderly : ∀ lo, t.history.Within lo → ∃ d q s, t.Orderly d q s

namespace Sound

variable {t u : Traffic}

/-- A ledger has nothing to do with the places of calls. -/
lemma ledger (h : t.Sound) (l : Ledger) : { t with ledger := l }.Sound := by
  refine ⟨h.clock, fun lo hlo => ?_⟩
  obtain ⟨d, q, s, ho⟩ := h.orderly lo hlo
  exact ⟨d, q, s, ho.ledger l⟩

/-- A call that is sent finds its place. -/
lemma send (h : t.Sound) (c : Call) : (t.send c).Sound := by
  refine ⟨?_, fun lo hlo => ?_⟩
  · have hclock := h.clock
    unfold Traffic.send
    split <;> exact hclock
  · have hhistory : (t.send c).history = { t.history with posted := c :: t.history.posted } := by
      unfold Traffic.send
      split <;> rfl
    rw [hhistory] at hlo
    have hc : InSpan lo c.time := hlo.calls c List.mem_cons_self
    have ht : InSpan lo t.time := hlo.clock t.time h.clock
    have hbefore : t.history.Within lo :=
      ⟨hlo.clock, fun e he => hlo.calls e (List.mem_cons_of_mem c he)⟩
    obtain ⟨d, q, s, ho⟩ := h.orderly lo hbefore
    have hiff := InSpan.isAfter_iff hc ht
    unfold Traffic.send
    split
    · rename_i hafter
      obtain ⟨s', hs'⟩ := ho.schedule (hiff.mp hafter)
      exact ⟨d, q, s', hs'⟩
    · rename_i hafter
      rw [hiff, not_lt] at hafter
      exact ⟨d, _, s, ho.queue hafter⟩

/-- Calls that are sent find their places. -/
lemma sendAll (h : t.Sound) (cs : List Call) : (t.sendAll cs).Sound := by
  induction cs generalizing t with
  | nil => exact h
  | cons c cs ih => exact ih (h.send c)

/-- Every step keeps calls in their places. -/
lemma step (h : t.Sound) (hstep : Step t u) : u.Sound := by
  cases hstep with
  | exchange hexchange => exact (h.ledger _).sendAll _
  | take hq =>
    refine ⟨h.clock, fun lo hlo => ?_⟩
    obtain ⟨d, q, s, ho⟩ := h.orderly lo ⟨hlo.clock, hlo.calls⟩
    obtain ⟨d', q', ho'⟩ := ho.take hq
    exact ⟨d', q', s, ho'⟩
  | @advance time hafter =>
    refine ⟨List.mem_cons_self, fun lo hlo => ?_⟩
    have htime : InSpan lo time := hlo.clock time List.mem_cons_self
    have hbefore : t.history.Within lo :=
      ⟨fun a ha => hlo.clock a (List.mem_cons_of_mem time ha), hlo.calls⟩
    have ht : InSpan lo t.time := hbefore.clock t.time h.clock
    obtain ⟨d, q, s, ho⟩ := h.orderly lo hbefore
    have hdue : ∀ e ∈ s, isLatest time e.1.time = true ↔ timeOf e ≤ time.toInt := by
      intro e he
      have hsent := ho.mem_sent (List.mem_append_right (d ++ q) he)
      have hposted := List.fst_mem_of_mem_zipIdx hsent
      exact InSpan.isLatest_iff htime (hbefore.calls e.1 (List.mem_reverse.mp hposted))
    obtain ⟨q', s', ho'⟩ := ho.advance ((InSpan.isAfter_iff htime ht).mp hafter) hdue
    exact ⟨d, q', s', ho'⟩

/-- Steps keep calls in their places. -/
lemma steps (h : t.Sound) (hsteps : Steps t u) : u.Sound := by
  induction hsteps with
  | refl => exact h
  | tail _ hlast ih => exact ih.step hlast

end Sound

end Traffic

namespace Root

/-- In a new root no call has been sent. -/
lemma sound_of_new {config : Config} {catalog : Catalog} {r : Root}
    (h : Root.new config catalog = .ok r) : r.traffic.Sound := by
  obtain ⟨address, -, rfl⟩ := new_eq_ok h
  refine ⟨List.mem_singleton.mpr rfl, fun lo hlo => ⟨[], [], [], ?_⟩⟩
  refine ⟨rfl, rfl, rfl, List.Perm.refl _, ?_, ?_, ?_, List.Pairwise.nil, List.Pairwise.nil⟩
  all_goals
    intro e he
    contradiction

/-- In every run calls are in their places. -/
lemma Reachable.sound {r : Root} (h : Reachable r) : r.traffic.Sound := by
  refine h.induction (P := fun r => r.traffic.Sound) ?_ ?_ ?_ ?_
  · exact fun r s hchange hr => hr.steps hchange.traffic_steps
  · intro r c _ hr
    rw [traffic_send]
    exact hr.send c
  · exact fun r c kind args a l _ _ hr => hr.ledger l
  · exact fun config catalog r hnew => sound_of_new hnew

/-- Where the calls of a root are.  All calls that were handed over to be sent, with their numbers,
are the dispatched, the queued and the scheduled ones, each once.  No call was dispatched before the
clock had reached its time, nor before a call that precedes it. -/
structure Delivered (r : Root) (dispatched queued scheduled : List (Call × ℕ)) : Prop where
  dispatched_eq : dispatched.map Prod.fst = r.history.dispatched.reverse.map Prod.fst
  queued_eq : queued.map Prod.fst = r.queue
  scheduled_eq : scheduled.map Prod.fst = r.scheduler.calls
  once : (dispatched ++ queued ++ scheduled).Perm r.history.sent
  timely : ∀ e ∈ r.history.dispatched, e.1.time ≤ e.2
  ordered : ∀ before b after, dispatched = before ++ b :: after →
    ∀ a ∈ r.history.sent, Precedes a b → a ∈ before

/-- Delivery order and conservation of calls.  At every moment of a run, also in the middle of an
operation, if the clock and the times of the calls have stayed within one interval shorter than
`2 ^ 63`, every call that was handed over to be sent is in one place, once; no call was dispatched
before the clock had reached its time; and of two calls, the first of which was sent before the
other and is not for a later time, the other was not dispatched first. -/
theorem delivery {r s : Root} (h : Reachable r) (hs : Changes r s) {lo : ℤ}
    (hlo : s.history.Within lo) :
    ∃ dispatched queued scheduled, s.Delivered dispatched queued scheduled := by
  obtain ⟨d, q, w, ho⟩ := (h.sound.steps hs.traffic_steps).orderly lo hlo
  refine ⟨d, q, w, ho.dispatched, ho.queued, ho.scheduled, ho.once, ?_, ?_⟩
  · intro e he
    exact Int64.le_iff_toInt_le.mpr (ho.timely e he)
  · exact fun before b after hd a ha hab => ho.mem_before hd ha hab

/-- A call that is dated ahead of a new clock. -/
def lateCall : Call := ⟨1, none, ⟨rootPath, hostId⟩, 5, .quiet, []⟩

/-- A call for an earlier time than `lateCall`. -/
def promptCall : Call := ⟨2, none, ⟨rootPath, hostId⟩, 3, .quiet, []⟩

/-- Another call for the time of `lateCall`. -/
def laterCall : Call := ⟨3, none, ⟨rootPath, hostId⟩, 5, .quiet, []⟩

/-- A root that has been sent a call that waits, and later, when their times have not come or have
just come, two others. -/
def busy (r : Root) : Root :=
  (Operation.send laterCall).run
    ((Operation.send promptCall).run ((Operation.tick 3).run ((Operation.send lateCall).run r)))

/-- A new root can be busy. -/
lemma reachable_busy {r : Root} (hr : Root.new {} .base = .ok r) : Reachable (busy r) := by
  have hlate : Reachable ((Operation.send lateCall).run r) :=
    .operate (.new hr) fun hc => absurd hc Bool.false_ne_true
  have htick : Reachable ((Operation.tick 3).run ((Operation.send lateCall).run r)) :=
    .operate (o := .tick 3) hlate trivial
  have hprompt : Reachable ((Operation.send promptCall).run
      ((Operation.tick 3).run ((Operation.send lateCall).run r))) :=
    .operate htick fun hc => absurd hc Bool.false_ne_true
  unfold busy
  exact .operate hprompt fun hc => absurd hc Bool.false_ne_true

/-- Of three calls, one that is queued at once is dispatched before one that was sent earlier but
waits for its time, and of two that wait for the same time the one that was sent earlier is
dispatched first. -/
theorem delivery_tick :
    ∃ r, Root.new {} .base = .ok r ∧
      (busy r).queue = [promptCall] ∧ (busy r).scheduler.calls = [lateCall, laterCall] ∧
      let s := (Operation.tick 7).run (busy r)
      s.history = ⟨[laterCall, promptCall, lateCall],
        [(laterCall, 7), (lateCall, 7), (promptCall, 7)], [7, 3, 0]⟩ ∧ s.history.Within 0 ∧
      s.Delivered [(promptCall, 1), (lateCall, 0), (laterCall, 2)] [] [] := by
  obtain ⟨r, hr⟩ : ∃ r, Root.new {} .base = .ok r := ⟨_, rfl⟩
  have hbusy : (busy r).queue = [promptCall] ∧
      (busy r).scheduler.calls = [lateCall, laterCall] := by
    cases hr
    exact ⟨rfl, rfl⟩
  refine ⟨r, hr, hbusy.1, hbusy.2, ?_⟩
  intro s
  have hreach : Reachable s := .operate (o := .tick 7) (reachable_busy hr) trivial
  have hhistory : s.history = ⟨[laterCall, promptCall, lateCall],
      [(laterCall, 7), (lateCall, 7), (promptCall, 7)], [7, 3, 0]⟩ := by
    cases hr
    rfl
  have hempty : s.queue = [] ∧ s.scheduler.calls = [] := by
    cases hr
    exact ⟨rfl, rfl⟩
  clear_value s
  have hwithin : s.history.Within 0 := by
    rw [hhistory]
    exact ⟨by simp [InSpan], by simp [InSpan, lateCall, promptCall, laterCall]⟩
  refine ⟨hhistory, hwithin, ?_⟩
  obtain ⟨d, q, w, hdelivered⟩ := delivery hreach (.refl _) hwithin
  have hd := hdelivered.dispatched_eq
  have hq := hdelivered.queued_eq
  have hw := hdelivered.scheduled_eq
  have hall := hdelivered.once
  rw [hhistory] at hd hall
  rw [hempty.1, List.map_eq_nil_iff] at hq
  rw [hempty.2, List.map_eq_nil_iff] at hw
  subst hq hw
  -- Which numbers the calls have is told by their match ids.
  have hnumber : ∀ e ∈ d, (e.1, e.1.matchId - 1) = e := by
    intro e he
    have hsent : e ∈ [(lateCall, 0), (promptCall, 1), (laterCall, 2)] :=
      hall.mem_iff.mp (List.mem_append_left _ (List.mem_append_left _ he))
    simp only [List.mem_cons, List.not_mem_nil, or_false] at hsent
    rcases hsent with rfl | rfl | rfl <;> rfl
  have hlist : d = [(promptCall, 1), (lateCall, 0), (laterCall, 2)] := calc
    d = d.map fun e => (e.1, e.1.matchId - 1) := by
      rw [List.map_congr_left hnumber, List.map_id']
    _ = (d.map Prod.fst).map fun c => (c, c.matchId - 1) := by
      rw [List.map_map]
      rfl
    _ = [(promptCall, 1), (lateCall, 0), (laterCall, 2)] := by
      rw [hd]
      rfl
  rw [← hlist]
  exact hdelivered

end Root

end Switchboard
