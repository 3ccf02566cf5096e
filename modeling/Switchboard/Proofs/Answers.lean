import Mathlib
import Switchboard.Proofs.Traffic

/-!
# Answers that are owed

The main theorem `answers_owed` is about the answers to requests.  In every run an answer is made
for a request at most once, whoever makes it and whichever copy of the request is answered, and none
is made for any other call.  A request that comes to a place where the root is in charge of the
answer (`Root.Route`) has been answered exactly once when it has been dispatched, whatever the
behaviors have done in the meantime.

The invariant is `Ledger.Valid`: the requests that were made have different numbers, and each answer
was made for a request whose number has been entered among the answered ones.  That no more than one
answer is sent comes from the numbers; that one is sent at all comes from a look at each route.
-/

namespace Switchboard

open Relation

/-! ## Ledgers -/

/-- Whether a call is an answer to another one, which is a request.  It carries the number of the
request and goes from where the request went to where the request came from. -/
structure Call.Answers (a c : Call) : Prop where
  request : c.kind = .request
  response : a.isResponse = true
  number : a.matchId = c.matchId
  source : a.source = some c.target
  target : some a.target = c.source
  time : a.time = c.time

namespace Ledger

/-- In a list of answers to requests of different numbers there is one under each number. -/
lemma filter_number {es : List (Call × Call)} (h : (es.map fun e => e.1.matchId).Nodup)
    {e : Call × Call} (he : e ∈ es) :
    (es.filter fun x => x.1.matchId == e.1.matchId) = [e] := by
  induction es with
  | nil => contradiction
  | cons x es ih =>
    rw [List.map_cons, List.nodup_cons] at h
    obtain ⟨hx, hes⟩ := h
    rcases List.mem_cons.mp he with rfl | he
    · have hrest : (es.filter fun x => x.1.matchId == e.1.matchId) = [] := by
        rw [List.filter_eq_nil_iff]
        intro y hy heq
        exact hx (List.mem_map.mpr ⟨y, hy, beq_iff_eq.mp heq⟩)
      rw [List.filter_cons_of_pos (by simp), hrest]
    · have hne : ¬(x.1.matchId == e.1.matchId) = true := by
        intro heq
        exact hx (List.mem_map.mpr ⟨e, he, (beq_iff_eq.mp heq).symm⟩)
      rw [List.filter_cons, if_neg hne]
      exact ih hes he

/-- What holds of the ledger in every run. -/
structure Valid (l : Ledger) : Prop where
  fresh : ∀ c ∈ l.made, c.matchId < l.nextId
  distinct : (l.made.map Call.matchId).Nodup
  sourced : ∀ c ∈ l.made, c.kind = .request → c.source.isSome = true
  asked : ∀ c ∈ l.made, c.isRequest = true
  entered : l.answered = l.answers.map fun e => e.1.matchId
  once : l.answered.Nodup
  fitting : ∀ e ∈ l.answers, e.2.Answers e.1

/-- Whether only requests have been answered that were made before. -/
def Honest (l : Ledger) : Prop := ∀ e ∈ l.answers, e.1 ∈ l.made

namespace Valid

variable {l m : Ledger}

/-- A new ledger. -/
lemma empty : Valid {} where
  fresh := by simp
  distinct := List.nodup_nil
  sourced := by simp
  asked := by simp
  entered := rfl
  once := List.nodup_nil
  fitting := by simp

/-- A request gets a number that no other one has. -/
lemma enter (h : l.Valid) {c : Call} (hnumber : c.matchId = l.nextId)
    (hsource : c.kind = .request → c.source.isSome = true) (hasked : c.isRequest = true) :
    Valid { l with nextId := l.nextId + 1, made := c :: l.made } where
  fresh := by
    intro d hd
    rcases List.mem_cons.mp hd with rfl | hd
    · rw [hnumber]
      exact Nat.lt_succ_self _
    · exact (h.fresh d hd).trans (Nat.lt_succ_self _)
  distinct := by
    rw [List.map_cons, List.nodup_cons]
    refine ⟨?_, h.distinct⟩
    intro hmem
    obtain ⟨d, hd, heq⟩ := List.mem_map.mp hmem
    have hlt := h.fresh d hd
    omega
  sourced := by
    intro d hd
    rcases List.mem_cons.mp hd with rfl | hd
    · exact hsource
    · exact h.sourced d hd
  asked := by
    intro d hd
    rcases List.mem_cons.mp hd with rfl | hd
    · exact hasked
    · exact h.asked d hd
  entered := h.entered
  once := h.once
  fitting := h.fitting

/-- An answer is made for a request that had none. -/
lemma answer (h : l.Valid) {c a : Call} {kind : CallKind} {args : List Value}
    (hkind : kind = .reply ∨ kind = .error) (hanswer : l.answer c kind args = .ok (a, m)) :
    m.Valid := by
  obtain ⟨hrequest, hnew, ⟨back, hback, ha⟩, rfl⟩ := answer_eq_ok hanswer
  refine ⟨h.fresh, h.distinct, h.sourced, h.asked, ?_, List.nodup_cons.mpr ⟨hnew, h.once⟩, ?_⟩
  · rw [List.map_cons, ← h.entered]
  · intro e he
    rcases List.mem_cons.mp he with rfl | he
    · subst ha
      refine ⟨hrequest, ?_, rfl, rfl, hback.symm, rfl⟩
      rcases hkind with rfl | rfl <;> rfl
    · exact h.fitting e he

/-- Every step of a ledger keeps it valid. -/
lemma step (h : l.Valid) (hstep : Step l m) : m.Valid := by
  cases hstep with
  | request target source time args => exact h.enter rfl (fun _ => rfl) rfl
  | quiet target source time args => exact h.enter rfl (fun hkind => by contradiction) rfl
  | answer hkind hanswer => exact h.answer hkind hanswer

/-- Steps of a ledger keep it valid. -/
lemma steps (h : l.Valid) (hsteps : Steps l m) : m.Valid := by
  induction hsteps with
  | refl => exact h
  | tail _ hlast ih => exact ih.step hlast

/-- Two requests of one number are one request. -/
lemma eq_of_number (h : l.Valid) {c d : Call} (hc : c ∈ l.made) (hd : d ∈ l.made)
    (hnumber : c.matchId = d.matchId) : c = d :=
  List.inj_on_of_nodup_map h.distinct hc hd hnumber

/-- A number is entered when an answer was made for a request of that number. -/
lemma mem_answered (h : l.Valid) {id : ℕ} :
    id ∈ l.answered ↔ ∃ e ∈ l.answers, e.1.matchId = id := by
  rw [h.entered, List.mem_map]

end Valid

/-- Steps of a ledger keep the requests that were made. -/
lemma Steps.made {l m : Ledger} (h : Steps l m) {c : Call} (hc : c ∈ l.made) : c ∈ m.made := by
  induction h with
  | refl => exact hc
  | tail _ hlast ih =>
    cases hlast with
    | request target source time args => exact List.mem_cons_of_mem _ ih
    | quiet target source time args => exact List.mem_cons_of_mem _ ih
    | answer hkind hanswer =>
      obtain ⟨-, -, -, rfl⟩ := answer_eq_ok hanswer
      exact ih

/-- An answered request stays answered. -/
lemma Steps.isAnswered {l m : Ledger} (h : Steps l m) {c : Call} (hc : l.isAnswered c = true) :
    m.isAnswered c = true := by
  induction h with
  | refl => exact hc
  | tail _ hlast ih =>
    cases hlast with
    | request target source time args => exact ih
    | quiet target source time args => exact ih
    | answer hkind hanswer =>
      obtain ⟨-, -, -, rfl⟩ := answer_eq_ok hanswer
      simp only [Ledger.isAnswered, Bool.and_eq_true, List.contains_eq_mem,
        decide_eq_true_eq] at ih ⊢
      exact ⟨ih.1, List.mem_cons_of_mem _ ih.2⟩

end Ledger

/-! ## Traffic -/

namespace Traffic

variable {t u : Traffic}

/-- Sending calls does not change the ledger. -/
lemma ledger_sendAll (t : Traffic) (cs : List Call) : (t.sendAll cs).ledger = t.ledger := by
  induction cs generalizing t with
  | nil => rfl
  | cons c cs ih =>
    rw [sendAll, List.foldl_cons]
    refine (ih (t.send c)).trans ?_
    unfold send
    split <;> rfl

/-- Calls that are sent are in the history. -/
lemma posted_sendAll (t : Traffic) (cs : List Call) :
    (t.sendAll cs).history.posted = cs.reverse ++ t.history.posted := by
  induction cs generalizing t with
  | nil => rfl
  | cons c cs ih =>
    rw [sendAll, List.foldl_cons]
    refine (ih (t.send c)).trans ?_
    have hsend : (t.send c).history.posted = c :: t.history.posted := by
      unfold send
      split <;> rfl
    rw [hsend, List.reverse_cons, List.append_assoc]
    rfl

/-- The ledger makes steps. -/
lemma Step.ledger (h : Step t u) : Ledger.Steps t.ledger u.ledger := by
  cases h with
  | exchange hexchange =>
    rw [ledger_sendAll]
    exact hexchange.1
  | take _ => exact ReflTransGen.refl
  | advance _ => exact ReflTransGen.refl

/-- The ledger makes steps. -/
lemma Steps.ledger_steps (h : Steps t u) : Ledger.Steps t.ledger u.ledger := by
  induction h with
  | refl => exact ReflTransGen.refl
  | tail _ hlast ih => exact ih.trans hlast.ledger

/-- Each answer that is made is sent, and no other one. -/
lemma Step.responses (h : Step t u) :
    ∃ es, u.ledger.answers = es ++ t.ledger.answers ∧
      u.history.posted.filter Call.isResponse =
        es.map Prod.snd ++ t.history.posted.filter Call.isResponse := by
  cases h with
  | @exchange l cs hexchange =>
    obtain ⟨-, es, hes, hcs⟩ := hexchange
    refine ⟨es, ?_, ?_⟩
    · rw [ledger_sendAll]
      exact hes
    · rw [posted_sendAll, List.filter_append, List.filter_reverse, hcs]
  | take _ => exact ⟨[], rfl, rfl⟩
  | advance _ => exact ⟨[], rfl, rfl⟩

/-- Each answer that is made is sent, and no other one. -/
lemma Steps.responses (h : Steps t u) :
    ∃ es, u.ledger.answers = es ++ t.ledger.answers ∧
      u.history.posted.filter Call.isResponse =
        es.map Prod.snd ++ t.history.posted.filter Call.isResponse := by
  induction h with
  | refl => exact ⟨[], rfl, rfl⟩
  | tail _ hlast ih =>
    obtain ⟨es, hes, hposted⟩ := ih
    obtain ⟨fs, hfs, hposted'⟩ := hlast.responses
    refine ⟨fs ++ es, ?_, ?_⟩
    · rw [hfs, hes, List.append_assoc]
    · rw [hposted', hposted, List.map_append, List.append_assoc]

/-- The ledger is valid, and every answer that was sent had been made for a request. -/
structure Settled (t : Traffic) : Prop where
  ledger : t.ledger.Valid
  posted : ∀ a ∈ t.history.posted, a.isResponse = true → ∃ c, (c, a) ∈ t.ledger.answers

namespace Settled

/-- Steps of the traffic keep it settled. -/
lemma steps (h : t.Settled) (hsteps : Steps t u) : u.Settled := by
  refine ⟨h.ledger.steps hsteps.ledger_steps, ?_⟩
  obtain ⟨es, hes, hposted⟩ := hsteps.responses
  intro a ha hresponse
  have hmem : a ∈ u.history.posted.filter Call.isResponse := List.mem_filter.mpr ⟨ha, hresponse⟩
  rw [hposted] at hmem
  rcases List.mem_append.mp hmem with hmem | hmem
  · obtain ⟨e, he, rfl⟩ := List.mem_map.mp hmem
    refine ⟨e.1, ?_⟩
    rw [hes]
    exact List.mem_append_left _ he
  · obtain ⟨c, hc⟩ := h.posted a (List.mem_filter.mp hmem).1 hresponse
    refine ⟨c, ?_⟩
    rw [hes]
    exact List.mem_append_right es hc

/-- While a request comes to be answered, one answer of its number is sent; it is an answer to the
request unless one was answered that nobody has made. -/
lemma responses_eq (h : t.Settled) (hsteps : Steps t u) {c : Call}
    (hopen : t.ledger.isAnswered c = false) (hclosed : u.ledger.isAnswered c = true) :
    ∃ a, (u.history.posted.filter fun p => p.isResponse && p.matchId == c.matchId) = [a] ∧
      (c ∈ t.ledger.made → u.ledger.Honest → a.Answers c) := by
  have hvalid : u.ledger.Valid := h.ledger.steps hsteps.ledger_steps
  obtain ⟨es, hes, hposted⟩ := hsteps.responses
  simp only [Ledger.isAnswered, Bool.and_eq_true, beq_iff_eq, List.contains_eq_mem,
    decide_eq_true_eq] at hclosed
  obtain ⟨hkind, hclosed⟩ := hclosed
  have hnumber : c.matchId ∉ t.ledger.answered := by
    simpa [Ledger.isAnswered, hkind] using hopen
  -- No answer of this number was sent before, since none had been made.
  have hbefore : (t.history.posted.filter Call.isResponse).filter
      (fun p => p.matchId == c.matchId) = [] := by
    rw [List.filter_eq_nil_iff]
    intro p hp heq
    obtain ⟨hp, hresponse⟩ := List.mem_filter.mp hp
    obtain ⟨d, hd⟩ := h.posted p hp hresponse
    apply hnumber
    rw [h.ledger.mem_answered]
    exact ⟨(d, p), hd, (h.ledger.fitting _ hd).number.symm.trans (beq_iff_eq.mp heq)⟩
  obtain ⟨e, he, henumber⟩ := hvalid.mem_answered.mp hclosed
  have hnew : e ∈ es := by
    rw [hes] at he
    rcases List.mem_append.mp he with he | he
    · exact he
    · exact absurd (h.ledger.mem_answered.mpr ⟨e, he, henumber⟩) hnumber
  have hdistinct : (es.map fun e => e.1.matchId).Nodup := by
    have honce := hvalid.once
    rw [hvalid.entered, hes, List.map_append] at honce
    exact honce.of_append_left
  have hone : (es.map Prod.snd).filter (fun p => p.matchId == c.matchId) = [e.2] := by
    rw [List.filter_map, ← henumber]
    have hnumbers : es.filter ((fun p : Call => p.matchId == e.1.matchId) ∘ Prod.snd) =
        es.filter fun x => x.1.matchId == e.1.matchId := by
      refine List.filter_congr fun x hx => ?_
      have hx : x ∈ u.ledger.answers := by
        rw [hes]
        exact List.mem_append_left _ hx
      rw [Function.comp_apply, (hvalid.fitting x hx).number]
    rw [hnumbers, Ledger.filter_number hdistinct hnew]
    rfl
  refine ⟨e.2, ?_, ?_⟩
  · have hfilter : (u.history.posted.filter fun p => p.isResponse && p.matchId == c.matchId) =
        (u.history.posted.filter Call.isResponse).filter fun p => p.matchId == c.matchId := by
      rw [List.filter_filter]
      refine List.filter_congr fun p _ => ?_
      rw [Bool.and_comm]
    rw [hfilter, hposted, List.filter_append, hone, hbefore]
    rfl
  · intro hmade hhonest
    have hsame : e.1 = c :=
      hvalid.eq_of_number (hhonest e he) (hsteps.ledger_steps.made hmade) henumber
    rw [← hsame]
    exact hvalid.fitting e he

end Settled

end Traffic

/-! ## Requests that are answered -/

/-- A request expects an answer. -/
lemma Call.expectsReply_of_kind {c : Call} (hkind : c.kind = .request) : c.expectsReply = true := by
  rw [expectsReply, hkind]
  rfl

/-- A request is one of the calls that ask for something. -/
lemma Call.isRequest_of_kind {c : Call} (hkind : c.kind = .request) : c.isRequest = true := by
  rw [isRequest, hkind]
  rfl

section Owed

variable {c : Call} (hkind : c.kind = .request) (hsource : c.source.isSome = true)

include hkind hsource in
/-- A request is only refused an answer when it has one. -/
lemma Ledger.isAnswered_of_error {l : Ledger} {kind : CallKind} {args : List Value}
    {e : CallError} (h : l.answer c kind args = .error e) : l.isAnswered c = true := by
  obtain ⟨back, hback⟩ := Option.isSome_iff_exists.mp hsource
  by_contra hopen
  have hnumber : c.matchId ∉ l.answered := by
    simpa [isAnswered, hkind] using hopen
  simp [answer, answerTarget, hkind, hback, hnumber, Except.map] at h

include hkind hsource in
/-- A control that replies has answered the request or fails. -/
lemma Iteration.isAnswered_replyIfExpected (args : List Value) (t : Turn) :
    (replyIfExpected c args t).2.ledger.isAnswered c = true := by
  have hexpects := Call.expectsReply_of_kind hkind
  unfold replyIfExpected
  rw [if_pos hexpects]
  unfold Turn.reply Turn.answer
  match h : t.ledger.answer c .reply args with
  | .ok (a, l) => exact Ledger.isAnswered_of_answer h
  | .error e => exact Ledger.isAnswered_of_error hkind hsource h

include hkind hsource in
/-- A function that does not fail has answered the request. -/
lemma Iteration.isAnswered_callFunction (s : Setting) (handler : List Value → Program)
    (w : Workbench) (h : (callFunction s handler c w).1 = .ok ()) :
    (callFunction s handler c w).2.turn.ledger.isAnswered c = true := by
  have hrequest : ¬(!c.isRequest) = true := by simp [Call.isRequest_of_kind hkind]
  unfold callFunction at h ⊢
  rw [if_neg hrequest] at h ⊢
  match hrun : (handler c.args).run s w with
  | (.error f, w') =>
    rw [hrun] at h
    contradiction
  | (.ok result, w') => exact isAnswered_replyIfExpected hkind hsource result w'.turn

include hkind hsource in
/-- A property that does not fail has answered the request. -/
lemma Iteration.isAnswered_callProperty (id : String) (w : Workbench)
    (h : (callProperty id c w).1 = .ok ()) :
    (callProperty id c w).2.turn.ledger.isAnswered c = true := by
  have hrequest : ¬(!c.isRequest) = true := by simp [Call.isRequest_of_kind hkind]
  unfold callProperty at h ⊢
  rw [if_neg hrequest] at h ⊢
  simp only at h ⊢
  split at h
  · contradiction
  · exact isAnswered_replyIfExpected hkind hsource _ w.turn

namespace Root

include hkind hsource in
/-- A request to which an answer is sent is answered. -/
lemma isAnswered_sendAnswer (r : Root) (kind : CallKind) (args : List Value) :
    (r.sendAnswer c kind args).ledger.isAnswered c = true := by
  unfold sendAnswer
  match h : r.ledger.answer c kind args with
  | .ok (a, l) =>
    have hledger : ({ r with ledger := l }.send a).ledger = l :=
      congrArg Traffic.ledger (traffic_send { r with ledger := l } a) |>.trans
        (Traffic.ledger_sendAll _ [a])
    simp only [hledger]
    exact Ledger.isAnswered_of_answer h
  | .error e => exact Ledger.isAnswered_of_error hkind hsource h

include hkind hsource in
/-- A request that has failed is answered. -/
lemma isAnswered_reject (r : Root) (f : Fault) :
    (r.reject c f).ledger.isAnswered c = true := by
  have hexpects := Call.expectsReply_of_kind hkind
  unfold reject
  split
  · exact isAnswered_sendAnswer hkind hsource r .error _
  · rename_i hclosed
    simpa [hexpects] using hclosed

include hkind hsource in
/-- A request of which the root knows the outcome is answered. -/
lemma isAnswered_answer (r : Root) (outcome : Except Fault (List Value)) :
    (r.answer c outcome).ledger.isAnswered c = true := by
  have hexpects := Call.expectsReply_of_kind hkind
  cases outcome with
  | ok args =>
    rw [answer, if_pos hexpects]
    exact isAnswered_sendAnswer hkind hsource r .reply args
  | error f => exact isAnswered_reject hkind hsource r f

/-- Sending what a unit has produced leaves an answered request answered. -/
lemma isAnswered_flush {r : Root} (source : Path) (o : Outbox)
    (h : r.ledger.isAnswered c = true) : (r.flush source o).ledger.isAnswered c = true := by
  have hsteps := (steps_flush source r o).ledger_steps
  rw [Traffic.ledger_sendAll] at hsteps
  exact hsteps.isAnswered h

include hkind hsource in
/-- A request is answered by a unit that either fails or answers it. -/
lemma isAnswered_dispatchUnit {r : Root} {h : Handle} {n : Node} (hn : r.units.get? h = some n)
    (hinvoke : ∀ s t, (n.invoke s c t).1 = .ok () →
      (n.invoke s c t).2.2.ledger.isAnswered c = true) :
    (r.dispatchUnit h c).ledger.isAnswered c = true := by
  unfold dispatchUnit inTurn
  simp only [hn]
  match hresult : n.invoke (r.setting n.address) c r.turn with
  | (.error f, m, t) => exact isAnswered_reject hkind hsource _ f
  | (.ok (), m, t) =>
    have hanswered := hinvoke (r.setting n.address) r.turn
    rw [hresult] at hanswered
    exact isAnswered_flush n.address t.outbox (hanswered rfl)

end Root

end Owed

/-! ## Routes -/

namespace Root

/-- The places to which a call can go where the root sees to it that it is answered. -/
inductive Route (r : Root) (c : Call) : Prop
  | noUnit (hhost : r.isForHost c = false) (h : r.contains c.target.path = false)
  | noControl (hhost : r.isForHost c = false) {n : Node} (hn : r.unit? c.target.path = some n)
      (h : Named.find? c.target.id.text n.iteration.members.controls = none)
  | noSystemControl (hhost : r.isForHost c = true) (hid : c.target.id ≠ hostId)
      (hid' : c.target.id ≠ timeoutId)
  | function (hhost : r.isForHost c = false) {n : Node} (hn : r.unit? c.target.path = some n)
      {handler : List Value → Program}
      (h : Named.find? c.target.id.text n.iteration.members.controls = some (.function handler))
  | property (hhost : r.isForHost c = false) {n : Node} (hn : r.unit? c.target.path = some n)
      {shape : Shape} {default : Value}
      (h : Named.find? c.target.id.text n.iteration.members.controls =
        some (.property shape default))
  | standard (hhost : r.isForHost c = false) (hunit : r.contains c.target.path = true)
      {control : StandardControl} (h : StandardControl.ofId? c.target.id.text = some control)

section Route

variable {r : Root} {c : Call}

/-- A request to a unit that either fails or answers it is answered, and a request for a standard
control too. -/
lemma isAnswered_dispatch_unit (hkind : c.kind = .request) (hsource : c.source.isSome = true)
    (hhost : r.isForHost c = false) {n : Node} (hn : r.unit? c.target.path = some n)
    (hinvoke : ∀ s t, (n.invoke s c t).1 = .ok () →
      (n.invoke s c t).2.2.ledger.isAnswered c = true) :
    (r.dispatch c).ledger.isAnswered c = true := by
  obtain ⟨h, hh, hn⟩ := Option.bind_eq_some_iff.mp hn
  have hrequest := Call.isRequest_of_kind hkind
  unfold dispatch
  rw [hhost, if_neg Bool.false_ne_true, hh]
  simp only [hrequest, ↓reduceIte]
  cases StandardControl.ofId? c.target.id.text with
  | some control => exact isAnswered_answer hkind hsource _ _
  | none => exact isAnswered_dispatchUnit hkind hsource hn hinvoke

/-- On each of the routes a request is answered. -/
lemma Route.isAnswered_dispatch (hroute : Route r c) (hkind : c.kind = .request)
    (hsource : c.source.isSome = true) : (r.dispatch c).ledger.isAnswered c = true := by
  cases hroute with
  | noUnit hhost h =>
    have hnone : r.handle? c.target.path = none := by
      rw [contains, Option.isSome_eq_false_iff, Option.isNone_iff_eq_none] at h
      exact h
    unfold dispatch
    rw [hhost, if_neg Bool.false_ne_true, hnone]
    exact isAnswered_reject hkind hsource r _
  | noControl hhost hn h =>
    refine isAnswered_dispatch_unit hkind hsource hhost hn ?_
    intro s t hok
    simp only [Node.invoke, Iteration.invoke, h] at hok
    contradiction
  | noSystemControl hhost hid hid' =>
    unfold dispatch dispatchHost
    rw [hhost, if_pos rfl, if_neg hid, if_neg hid']
    exact isAnswered_reject hkind hsource r _
  | @function hhost n hn handler h =>
    refine isAnswered_dispatch_unit hkind hsource hhost hn ?_
    intro s t hok
    simp only [Node.invoke, Iteration.invoke, h] at hok ⊢
    exact Iteration.isAnswered_callFunction hkind hsource s handler ⟨n.iteration.cells, t⟩ hok
  | @property hhost n hn shape default h =>
    refine isAnswered_dispatch_unit hkind hsource hhost hn ?_
    intro s t hok
    simp only [Node.invoke, Iteration.invoke, h] at hok ⊢
    exact Iteration.isAnswered_callProperty hkind hsource _ ⟨n.iteration.cells, t⟩ hok
  | @standard hhost hunit control h =>
    obtain ⟨p, hp⟩ := Option.isSome_iff_exists.mp hunit
    have hrequest := Call.isRequest_of_kind hkind
    unfold dispatch
    rw [hhost, if_neg Bool.false_ne_true, hp]
    simp only [hrequest, ↓reduceIte, h]
    exact isAnswered_answer hkind hsource _ _

end Route

/-! ## Runs -/

/-- In a new root nothing has been asked. -/
lemma settled_of_new {config : Config} {catalog : Catalog} {r : Root}
    (h : Root.new config catalog = .ok r) : r.traffic.Settled := by
  obtain ⟨address, -, rfl⟩ := new_eq_ok h
  exact ⟨.empty, fun a ha => by contradiction⟩

/-- In every run the traffic is settled. -/
lemma Reachable.settled {r : Root} (h : Reachable r) : r.traffic.Settled := by
  refine h.induction (P := fun r => r.traffic.Settled) ?_ ?_ ?_ ?_
  · exact fun r s hchange hr => hr.steps hchange.traffic_steps
  · intro r c hc hr
    rw [traffic_send]
    have hledger : (r.traffic.send c).ledger = r.ledger := r.traffic.ledger_sendAll [c]
    have hposted : (r.traffic.send c).history.posted = c :: r.history.posted :=
      r.traffic.posted_sendAll [c]
    refine ⟨?_, ?_⟩
    · rw [hledger]
      exact hr.ledger
    · rw [hledger, hposted]
      intro a ha hresponse
      rcases List.mem_cons.mp ha with rfl | ha
      · exact hc hresponse
      · exact hr.posted a ha hresponse
  · intro r c kind args a l hkind hanswer hr
    refine ⟨hr.ledger.answer hkind hanswer, ?_⟩
    intro b hb hresponse
    obtain ⟨d, hd⟩ := hr.posted b hb hresponse
    obtain ⟨-, -, -, rfl⟩ := Ledger.answer_eq_ok hanswer
    exact ⟨d, List.mem_cons_of_mem _ hd⟩
  · exact fun config catalog r hnew => settled_of_new hnew

/-- What holds of the answers that were made in a run: each is an answer to a request, there are
never two to one request, none to a quiet request that was made, and none is sent that was not
made. -/
structure AnswersOnce (r : Root) : Prop where
  once : (r.ledger.answers.map fun e => e.1.matchId).Nodup
  fitting : ∀ e ∈ r.ledger.answers, e.2.Answers e.1
  quiet : r.ledger.Honest → ∀ c ∈ r.ledger.made, c.kind = .quiet →
    ∀ e ∈ r.ledger.answers, e.2.matchId ≠ c.matchId
  made : ∀ a ∈ r.history.posted, a.isResponse = true → ∃ c, (c, a) ∈ r.ledger.answers

/-- Where the traffic is settled, the answers are in order. -/
lemma answersOnce_of_settled {r : Root} (h : r.traffic.Settled) : r.AnswersOnce where
  once := by
    have honce := h.ledger.once
    rw [h.ledger.entered] at honce
    exact honce
  fitting := h.ledger.fitting
  quiet := by
    intro hhonest c hc hquiet e he hnumber
    have hfit := h.ledger.fitting e he
    have hsame : e.1 = c :=
      h.ledger.eq_of_number (hhonest e he) hc (hfit.number.symm.trans hnumber)
    have hrequest := hfit.request
    rw [hsame, hquiet] at hrequest
    contradiction
  made := h.posted

/-- Each request gets exactly the answers that it is owed.  At every moment of a run the answers
that were made are in order, and when a request that was made and has not been answered is
dispatched on one of the routes, then afterwards one answer of its number has been sent, whatever
behaviors have done in the meantime; it goes from the target of the request to its source, provided
that behaviors only answer requests that were made. -/
theorem answers_owed {r s : Root} (h : Reachable r) (hs : Changes r s) :
    s.AnswersOnce ∧
      ∀ c ∈ s.ledger.made, c.kind = .request → s.ledger.isAnswered c = false → s.Route c →
        (s.dispatch c).AnswersOnce ∧
        ∃ a, ((s.dispatch c).history.posted.filter
            fun p => p.isResponse && p.matchId == c.matchId) = [a] ∧
          ((s.dispatch c).ledger.Honest → a.Answers c) := by
  have hsettled : s.traffic.Settled := h.settled.steps hs.traffic_steps
  refine ⟨answersOnce_of_settled hsettled, ?_⟩
  intro c hmade hkind hopen hroute
  have hsteps := (deeds_dispatch s c).changes.traffic_steps
  refine ⟨answersOnce_of_settled (hsettled.steps hsteps), ?_⟩
  have hclosed := hroute.isAnswered_dispatch hkind (hsettled.ledger.sourced c hmade hkind)
  obtain ⟨a, hone, hanswers⟩ := hsettled.responses_eq hsteps hopen hclosed
  exact ⟨a, hone, hanswers hmade⟩

/-- The target of a request to a unit that does not exist. -/
def nowhere : Endpoint := ⟨rootPath.append ⟨"gone", by decide⟩, hostId⟩

/-- A request of the host to a unit that does not exist. -/
def vainRequest : Call := ⟨1, some ⟨rootPath, hostId⟩, nowhere, 0, .request, []⟩

/-- A request to a unit that does not exist is answered with an error. -/
theorem answers_owed_vainRequest :
    ∃ r, Root.new {} .base = .ok r ∧
      let s := (Operation.makeRequest nowhere r.host 0 []).run r
      vainRequest ∈ s.ledger.made ∧ s.Route vainRequest ∧
      (s.dispatch vainRequest).ledger.Honest ∧
      ∃ a, ((s.dispatch vainRequest).history.posted.filter
          fun p => p.isResponse && p.matchId == vainRequest.matchId) = [a] ∧
        a.Answers vainRequest := by
  obtain ⟨r, hr⟩ : ∃ r, Root.new {} .base = .ok r := ⟨_, rfl⟩
  have hreach : Reachable ((Operation.makeRequest nowhere r.host 0 []).run r) :=
    .operate (.new hr) trivial
  have hledger : ((Operation.makeRequest nowhere r.host 0 []).run r).ledger =
      ⟨2, [], [vainRequest], []⟩ := by
    cases hr
    rfl
  have hroute : Route ((Operation.makeRequest nowhere r.host 0 []).run r) vainRequest := by
    cases hr
    exact .noUnit rfl rfl
  have hhonest : (dispatch ((Operation.makeRequest nowhere r.host 0 []).run r)
      vainRequest).ledger.Honest := by
    cases hr
    intro e he
    rw [List.mem_singleton.mp he]
    exact List.mem_singleton.mpr rfl
  have hmade : vainRequest ∈ ((Operation.makeRequest nowhere r.host 0 []).run r).ledger.made := by
    rw [hledger]
    exact List.mem_singleton.mpr rfl
  have hopen : ((Operation.makeRequest nowhere r.host 0 []).run r).ledger.isAnswered vainRequest =
      false := by
    rw [hledger]
    rfl
  obtain ⟨-, howed⟩ := answers_owed hreach (.refl _)
  obtain ⟨-, a, hone, hanswers⟩ := howed vainRequest hmade rfl hopen hroute
  exact ⟨r, hr, hmade, hroute, hhonest, a, hone, hanswers hhonest⟩

end Root

end Switchboard
