import Mathlib
import Switchboard.Proofs.Registrations
import Switchboard.Proofs.Waits

/-!
# Deadlines of requests

A request with a timeout is entered in the table of the host, and with it a call to the host is
scheduled that fails the request if it is still pending then.  The main theorem
`settled_by_deadline` says that no such request outlives its deadline, and what its handle holds
afterwards, whatever the host has done with the root in between.

The invariant is `Root.Attends`: as long as the request is pending, its expiry waits to be
dispatched, and the request is pending exactly as long as no call that settles it has been
dispatched.
-/

namespace Switchboard

open Relation

/-! ## What a call does to a table -/

namespace CallTable

variable {κ : Type} {t : CallTable κ} {matchId : ℕ} {k : Continuation κ}

/-- A match id is waited for if there is an entry of it. -/
lemma contains_iff : t.contains matchId = true ↔ ∃ k, (matchId, k) ∈ t.entries := by
  simp [contains]

/-- For a match id that is waited for something is found. -/
lemma exists_find? (h : (matchId, k) ∈ t.entries) : ∃ k', t.find? matchId = some k' := by
  unfold find?
  cases hfind : t.entries.find? fun e => e.1 == matchId with
  | none => exact absurd (List.find?_eq_none.mp hfind _ h) (by simp)
  | some e => exact ⟨e.2, rfl⟩

end CallTable

namespace TableAct

open Correlation

variable {κ : Type} {t : CallTable κ} {handles : AsyncStore} {a : TableAct κ} {matchId : ℕ}
  {id : HandleId}

/-- A sweeping act leaves the entries that are not dead and that it brings no outcome for. -/
lemma mem_run_iff (hsweeps : a.sweeps = true) {e : ℕ × Continuation κ} :
    e ∈ (a.run t handles).1.entries ↔
      e ∈ t.entries ∧ t.isDead handles e.2 = false ∧ ∀ o, a.brings t.convert ≠ some (e.1, o) := by
  have hpurge : e ∈ (t.purge handles).entries ↔ e ∈ t.entries ∧ t.isDead handles e.2 = false := by
    simp [CallTable.purge]
  cases hbrings : a.brings t.convert with
  | none =>
    rw [run_of_sweeps hsweeps hbrings, hpurge]
    simp
  | some b =>
    rw [run_of_brings hbrings, entries_deliver, List.mem_filter, hpurge, and_assoc]
    obtain ⟨named, brought⟩ := b
    simp [eq_comm (a := e.1)]

/-- A sweeping act gives out no handle. -/
lemma length_handles_run (hsweeps : a.sweeps = true) :
    (a.run t handles).2.1.handles.length = handles.handles.length := by
  cases hbrings : a.brings t.convert with
  | none => rw [run_of_sweeps hsweeps hbrings]
  | some b =>
    rw [run_of_brings hbrings]
    unfold deliver
    cases (t.purge handles).find? b.1 with
    | none => rfl
    | some k =>
      cases k with
      | callback token => rfl
      | handle id => exact List.length_modify ..

/-- A sweeping act leaves a handle alone if it brings no outcome for it. -/
lemma get_run (hsweeps : a.sweeps = true)
    (h : ∀ e ∈ t.entries, ∀ o, a.brings t.convert = some (e.1, o) → e.2 ≠ .handle id) :
    (a.run t handles).2.1.get id = handles.get id := by
  cases hbrings : a.brings t.convert with
  | none => rw [run_of_sweeps hsweeps hbrings]
  | some b =>
    rw [run_of_brings hbrings]
    unfold deliver
    cases hfind : (t.purge handles).find? b.1 with
    | none => rfl
    | some k =>
      have hentry : (b.1, k) ∈ t.entries :=
        List.mem_of_mem_filter (CallTable.mem_of_find? hfind)
      cases k with
      | callback token => rfl
      | handle other =>
        refine AsyncStore.get_update_of_ne ?_
        rintro rfl
        exact h _ hentry b.2 hbrings rfl

/-- The outcome that an act has for a match id. -/
def outcomeFor (convert : List Value → Outcome) (matchId : ℕ) (a : TableAct κ) : Option Outcome :=
  (a.brings convert).bind fun b => if b.1 = matchId then some b.2 else none

/-- An act has an outcome for the match id that it brings it for. -/
lemma outcomeFor_eq_some {convert : List Value → Outcome} {o : Outcome} :
    a.outcomeFor convert matchId = some o ↔ a.brings convert = some (matchId, o) := by
  unfold outcomeFor
  cases a.brings convert with
  | none => simp
  | some b =>
    obtain ⟨named, brought⟩ := b
    by_cases h : named = matchId <;> simp [h]

/-- A sweeping act on the table in which a handle waits for a match id, or has waited for it: the
handle is given the first outcome for it, and has waited until then. -/
lemma run_awaited (hsweeps : a.sweeps = true)
    (hpair : ∀ e ∈ t.entries, e.1 = matchId ↔ e.2 = .handle id)
    (hlt : id < handles.handles.length) {v : Option Outcome}
    (hget : handles.get id = ⟨v, false, true⟩) (hcontains : t.contains matchId = v.isNone) :
    (a.run t handles).1.contains matchId = (v.or (a.outcomeFor t.convert matchId)).isNone ∧
      (a.run t handles).2.1.get id = ⟨v.or (a.outcomeFor t.convert matchId), false, true⟩ := by
  have hmem : (∃ k, (matchId, k) ∈ t.entries) ↔ (matchId, .handle id) ∈ t.entries := by
    refine ⟨fun ⟨k, hk⟩ => ?_, fun h => ⟨_, h⟩⟩
    obtain rfl : k = .handle id := (hpair _ hk).mp rfl
    exact hk
  have halive : t.isDead handles (.handle id) = false := by
    unfold CallTable.isDead
    simp only [hget]
    cases t.retention <;> rfl
  have hwaiting : (matchId, .handle id) ∈ t.entries ↔ v = none := by
    rw [← hmem, ← CallTable.contains_iff, hcontains, Option.isNone_iff_eq_none]
  constructor
  · -- The entry is still there if it was there and no outcome has come for it.
    rw [Bool.eq_iff_iff, CallTable.contains_iff, Option.isNone_iff_eq_none, Option.or_eq_none_iff]
    have hnone : a.outcomeFor t.convert matchId = none ↔
        ∀ o, a.brings t.convert ≠ some (matchId, o) := by
      simp only [Option.eq_none_iff_forall_ne_some, ne_eq, outcomeFor_eq_some]
    simp only [mem_run_iff hsweeps, ← hwaiting, hnone]
    refine ⟨fun ⟨k, hk, _, ho⟩ => ⟨hmem.mp ⟨k, hk⟩, ho⟩, fun ⟨hk, ho⟩ => ⟨_, hk, halive, ho⟩⟩
  · cases v with
    | some o =>
      have habsent : (matchId, .handle id) ∉ t.entries := fun h => by simpa using hwaiting.mp h
      rw [get_run hsweeps, hget]
      · rfl
      · rintro ⟨named, k⟩ he o' - rfl
        obtain rfl : named = matchId := (hpair _ he).mpr rfl
        exact habsent he
    | none =>
      have hentry : (matchId, .handle id) ∈ t.entries := hwaiting.mpr rfl
      cases ho : a.outcomeFor t.convert matchId with
      | none =>
        rw [get_run hsweeps, hget]
        · rfl
        · rintro ⟨named, k⟩ he o' hbrings rfl
          obtain rfl : named = matchId := (hpair _ he).mpr rfl
          rw [outcomeFor_eq_some.mpr hbrings] at ho
          contradiction
      | some o =>
        have hpurged : (matchId, .handle id) ∈ (t.purge handles).entries :=
          List.mem_filter.mpr ⟨hentry, by simp [halive]⟩
        obtain ⟨k, hfind⟩ := CallTable.exists_find? hpurged
        obtain rfl : k = .handle id :=
          (hpair _ (List.mem_of_mem_filter (CallTable.mem_of_find? hfind))).mp rfl
        rw [run_of_brings (outcomeFor_eq_some.mp ho)]
        unfold deliver
        rw [hfind]
        refine (AsyncStore.get_update_self hlt).trans ?_
        rw [hget]
        rfl

end TableAct

namespace Root

variable {r s : Root} {c : Call} {matchId : ℕ} {id : HandleId}

/-! ## What the host is told -/

/-- What a call to the host means to its tables. -/
def hostAct (r : Root) (c : Call) : TableAct String :=
  if c.target = r.host then .handle c else .handleTimeout c

/-- A table that may have been given a call. -/
def Given (a : TableAct String) (t : CallTable String) (handles : AsyncStore)
    (t' : CallTable String) (handles' : AsyncStore) : Prop :=
  t' = t ∧ handles' = handles ∨ t' = (a.run t handles).1 ∧ handles' = (a.run t handles).2.1

/-- A table that has been given a call in any case if that brings an outcome for a match id: the
handle that waits for the match id, or has waited for it, is given the first outcome. -/
lemma Given.awaited {a : TableAct String} {t t' : CallTable String} {handles handles' : AsyncStore}
    (h : Given a t handles t' handles') (hsweeps : a.sweeps = true)
    (hreach : ∀ o, a.brings t.convert = some (matchId, o) →
      t' = (a.run t handles).1 ∧ handles' = (a.run t handles).2.1)
    (hpair : ∀ e ∈ t.entries, e.1 = matchId ↔ e.2 = .handle id)
    (hlt : id < handles.handles.length) {v : Option Outcome}
    (hget : handles.get id = ⟨v, false, true⟩) (hcontains : t.contains matchId = v.isNone) :
    t'.contains matchId = (v.or (a.outcomeFor t.convert matchId)).isNone ∧
      handles'.get id = ⟨v.or (a.outcomeFor t.convert matchId), false, true⟩ := by
  have hrun := TableAct.run_awaited hsweeps hpair hlt hget hcontains
  rcases h with ⟨rfl, rfl⟩ | ⟨rfl, rfl⟩
  · cases ho : a.outcomeFor t'.convert matchId with
    | none =>
      rw [Option.or_none]
      exact ⟨hcontains, hget⟩
    | some o =>
      obtain ⟨htable, hhandles⟩ := hreach o (TableAct.outcomeFor_eq_some.mp ho)
      rw [← htable, ← hhandles, ho] at hrun
      exact hrun
  · exact hrun

/-- What comes of a call to the host: the callbacks may be told of it first and then the other
requests, which are told in any case if it is for them. -/
structure Told (a : TableAct String) (r s : Root) : Prop where
  rest : s = { r with
    requests := s.requests, callbacks := s.callbacks, handles := s.handles, journal := s.journal }
  tables : ∃ handles, Given a r.callbacks r.handles s.callbacks handles ∧
    Given a r.requests handles s.requests s.handles ∧
    ∀ matchId o, a.brings r.requests.convert = some (matchId, o) →
      r.callbacks.contains matchId = false →
      s.requests = (a.run r.requests handles).1 ∧ s.handles = (a.run r.requests handles).2.1

/-- What is noted goes into the journal only. -/
lemma noteDue_eq (due : Option (String × Outcome)) (r : Root) :
    noteDue due r = { r with journal := (noteDue due r).journal } := by
  cases due <;> rfl

/-- An answer to the host is handed to one of its tables. -/
lemma told_receiveAnswer (r : Root) (c : Call) : Told (.handle c) r (r.receiveAnswer c) := by
  have hbrought {matchId : ℕ} {o : Outcome}
      (h : (TableAct.handle c : TableAct String).brings r.requests.convert = some (matchId, o)) :
      c.isResponse = true ∧ c.matchId = matchId := by
    cases hkind : c.kind <;> simp_all [TableAct.brings, Call.isResponse]
  unfold receiveAnswer
  split
  · rename_i hresponse
    refine ⟨rfl, r.handles, .inl ⟨rfl, rfl⟩, .inl ⟨rfl, rfl⟩, fun matchId o h _ => ?_⟩
    simp [(hbrought h).1] at hresponse
  · split
    · rename_i hcontains
      rw [noteDue_eq]
      refine ⟨rfl, _, .inr ⟨rfl, rfl⟩, .inl ⟨rfl, rfl⟩, fun matchId o h hnone => ?_⟩
      rw [(hbrought h).2, hnone] at hcontains
      contradiction
    · rw [noteDue_eq]
      exact ⟨rfl, r.handles, .inl ⟨rfl, rfl⟩, .inr ⟨rfl, rfl⟩, fun _ _ _ _ => ⟨rfl, rfl⟩⟩

/-- A timeout is handed to the callbacks first. -/
lemma told_receiveTimeout (r : Root) (c : Call) :
    Told (.handleTimeout c) r (r.receiveTimeout c) := by
  have hignored {matchId : ℕ} {o : Outcome}
      (h : (TableAct.handleTimeout c : TableAct String).brings r.requests.convert =
        some (matchId, o)) (hnone : r.callbacks.contains matchId = false) :
      (r.callbacks.handleTimeout r.handles c).resolution = .ignored := by
    obtain ⟨named, hid, heq⟩ := Option.map_eq_some_iff.mp h
    obtain rfl : named = matchId := congrArg Prod.fst heq
    unfold CallTable.handleTimeout
    cases hfind : (r.callbacks.purge r.handles).find? named with
    | none => simp [hid, hfind]
    | some k =>
      have hentry := List.mem_of_mem_filter (CallTable.mem_of_find? hfind)
      rw [CallTable.contains_iff.mpr ⟨k, hentry⟩] at hnone
      contradiction
  unfold receiveTimeout
  simp only
  rw [noteDue_eq (r.callbacks.handleTimeout r.handles c).due]
  split
  · rw [noteDue_eq]
    exact ⟨rfl, _, .inr ⟨rfl, rfl⟩, .inr ⟨rfl, rfl⟩, fun _ _ _ _ => ⟨rfl, rfl⟩⟩
  · rename_i hsettled
    exact ⟨rfl, _, .inr ⟨rfl, rfl⟩, .inl ⟨rfl, rfl⟩,
      fun matchId o h hnone => absurd (hignored h hnone) hsettled⟩

/-- A call to the host or to its timeouts is served by telling its tables. -/
lemma told_dispatch (h : c.target = r.host ∨ c.target = r.timeout) :
    Told (r.hostAct c) r (r.dispatch c) := by
  have hfor : r.isForHost c = true := by
    unfold isForHost
    rcases h with h | h <;> simp [h, host, timeout] <;> decide
  have hne : timeoutId ≠ hostId := by decide
  unfold dispatch hostAct
  rw [if_pos hfor]
  unfold dispatchHost
  rcases h with h | h
  · have hid : c.target.id = hostId := congrArg Endpoint.id h
    rw [if_pos hid, if_pos h]
    exact told_receiveAnswer r c
  · have hid : c.target.id = timeoutId := congrArg Endpoint.id h
    have hhost : c.target ≠ r.host := fun h' => hne (hid.symm.trans (congrArg Endpoint.id h'))
    rw [if_neg (hid.trans_ne hne), if_neg hhost, if_pos hid]
    exact told_receiveTimeout r c

/-- Any other call is served by chores. -/
lemma chores_dispatch_of_ne (hhost : c.target ≠ r.host) (htimeout : c.target ≠ r.timeout) :
    Chores r (r.dispatch c) := by
  cases hfor : r.isForHost c with
  | false => exact chores_dispatch hfor
  | true =>
    have hpath : c.target.path = r.address := by
      unfold isForHost at hfor
      simpa using (Bool.and_eq_true_iff.mp hfor).1
    have hid {id : EndpointId} (hne : c.target ≠ ⟨r.address, id⟩) : c.target.id ≠ id := by
      rintro rfl
      exact hne (hpath ▸ rfl)
    unfold dispatch dispatchHost
    rw [if_pos hfor, if_neg (hid hhost), if_neg (hid htimeout)]
    exact chores_reject r c _

/-- What a call means to the tables of the host is a sweep. -/
lemma sweeps_hostAct (r : Root) (c : Call) : (r.hostAct c).sweeps = true := by
  unfold hostAct
  split <;> rfl

/-- A table that may have been given a call has no new entries, and no handle was given out. -/
lemma Given.le {a : TableAct String} {t t' : CallTable String} {handles handles' : AsyncStore}
    (h : Given a t handles t' handles') (hsweeps : a.sweeps = true) :
    (∀ e ∈ t'.entries, e ∈ t.entries) ∧ t'.convert = t.convert ∧
      handles'.handles.length = handles.handles.length := by
  rcases h with ⟨rfl, rfl⟩ | ⟨rfl, rfl⟩
  · exact ⟨fun _ he => he, rfl, rfl⟩
  · exact ⟨fun _ he => ((TableAct.mem_run_iff hsweeps).mp he).1,
      (Correlation.run_settings ..).2, TableAct.length_handles_run hsweeps⟩

/-! ## Numbers in use -/

/-- The entries of a table bear numbers and handles that were given out. -/
def Numbers (r : Root) (t : CallTable String) : Prop :=
  ∀ e ∈ t.entries, e.1 < r.ledger.nextId ∧
    ∀ id, e.2 = .handle id → id < r.handles.handles.length

/-- The tables of the host bear numbers that were given out, and replies are their own outcomes. -/
structure Booked (r : Root) : Prop where
  convert : r.requests.convert = .ok
  requests : r.Numbers r.requests
  callbacks : r.Numbers r.callbacks

namespace Booked

/-- Numbers stay given out. -/
lemma waits (h : Booked r) (hs : StillWaits r s) : Booked s := by
  have hnumbers {t u : CallTable String} (ht : r.Numbers t) (hu : Enters r s t u) :
      s.Numbers u := by
    obtain ⟨new, rfl, hnew⟩ := hu
    intro e he
    rcases List.mem_append.mp he with he | he
    · exact ⟨(hnew e he).1.2, fun id hid => ((hnew e he).2 id hid).2⟩
    · exact ⟨(ht e he).1.trans_le hs.nextId,
        fun id hid => ((ht e he).2 id hid).trans_le hs.length_le⟩
  refine ⟨?_, hnumbers h.requests hs.requests, hnumbers h.callbacks hs.callbacks⟩
  obtain ⟨new, hnew, -⟩ := hs.requests
  rw [hnew]
  exact h.convert

/-- A call that is served takes no number. -/
lemma serve (h : Booked r) (c : Call) (rest : List Call) :
    Booked ((r.take c rest).dispatch c) := by
  have htaken : Booked (r.take c rest) := ⟨h.convert, h.requests, h.callbacks⟩
  by_cases hdesk : c.target = (r.take c rest).host ∨ c.target = (r.take c rest).timeout
  · have htold := told_dispatch hdesk
    generalize (r.take c rest).dispatch c = s at htold
    obtain ⟨hs, handles, hcallbacks, hrequests, -⟩ := htold
    obtain ⟨hmem, -, hlength⟩ := hcallbacks.le (sweeps_hostAct ..)
    obtain ⟨hmem', hconvert, hlength'⟩ := hrequests.le (sweeps_hostAct ..)
    have hledger : s.ledger = r.ledger := by rw [hs]; rfl
    have hnumbers {t : CallTable String} (ht : r.Numbers t) : s.Numbers t := by
      intro e he
      rw [hledger, hlength'.trans hlength]
      exact ht e he
    exact ⟨hconvert.trans htaken.convert, fun e he => hnumbers h.requests e (hmem' e he),
      fun e he => hnumbers h.callbacks e (hmem e he)⟩
  · obtain ⟨hhost, htimeout⟩ := not_or.mp hdesk
    exact htaken.waits (.chores (chores_dispatch_of_ne hhost htimeout))

/-- Changing the state of a handle gives out none. -/
lemma touch (h : Booked r) (id : HandleId) (f : Async → Async) :
    Booked { r with handles := r.handles.update id f } := by
  have hnumbers {t : CallTable String} (ht : r.Numbers t) :
      Numbers { r with handles := r.handles.update id f } t := by
    intro e he
    refine ⟨(ht e he).1, fun other hother => ?_⟩
    exact ((ht e he).2 other hother).trans_eq (List.length_modify ..).symm
  exact ⟨h.convert, hnumbers h.requests, hnumbers h.callbacks⟩

end Booked

/-- In every run the tables of the host bear numbers that were given out. -/
lemma Reachable.booked (h : Reachable r) : r.Booked := by
  induction h with
  | new h =>
    obtain ⟨address, -, rfl⟩ := new_eq_ok h
    exact ⟨rfl, fun _ he => by contradiction, fun _ he => by contradiction⟩
  | operate _ _ ih =>
    exact Operation.preserve_waits (fun _ _ hs hr => hr.waits hs)
      (fun _ c rest _ hr => hr.serve c rest) (fun id f _ => ih.touch id f) ih

/-! ## A request with a deadline -/

/-- The answer that a call brings to a request of the host. -/
def answerTo (r : Root) (matchId : ℕ) (c : Call) : Option Outcome :=
  if c.target = r.host then (TableAct.handle c : TableAct String).outcomeFor .ok matchId else none

/-- The timeout that a call brings to a request of the host. -/
def timeoutOf (r : Root) (matchId : ℕ) (c : Call) : Option Outcome :=
  if c.target = r.timeout then (TableAct.handleTimeout c : TableAct String).outcomeFor .ok matchId
  else none

/-- What a call says of a request of the host when it is served. -/
def verdict (r : Root) (matchId : ℕ) (c : Call) : Option Outcome :=
  (r.answerTo matchId c).or (r.timeoutOf matchId c)

/-- A call to the host says of a request what it means to the tables. -/
lemma verdict_eq (h : c.target = r.host ∨ c.target = r.timeout) :
    r.verdict matchId c = (r.hostAct c).outcomeFor .ok matchId := by
  have hne : r.timeout ≠ r.host := by
    intro heq
    have hid : timeoutId = hostId := congrArg Endpoint.id heq
    exact absurd hid (by decide)
  unfold verdict answerTo timeoutOf hostAct
  rcases h with h | h
  · rw [if_pos h, if_pos h, if_neg (h.trans_ne hne.symm), Option.or_none]
  · rw [if_neg (h.trans_ne hne), if_neg (h.trans_ne hne), if_pos h, Option.none_or]

/-- Any other call says nothing. -/
lemma verdict_of_ne (hhost : c.target ≠ r.host) (htimeout : c.target ≠ r.timeout) :
    r.verdict matchId c = none := by
  unfold verdict answerTo timeoutOf
  rw [if_neg hhost, if_neg htimeout, Option.or_none]

/-- A request of the host under a match id is attended to: its expiry waits to be dispatched as
long as it is pending.  If its handle is kept, the request is pending until a call that was served
has settled it, and the handle holds what the first such call has said. -/
structure Attends (kept : Prop) (r : Root) (matchId : ℕ) (id : HandleId) (expiry : Call)
    (served : List Call) (s : Root) : Prop where
  address : s.address = r.address
  convert : s.requests.convert = .ok
  number : matchId < s.ledger.nextId
  handle : id < s.handles.handles.length
  requests : ∀ e ∈ s.requests.entries, e.1 = matchId ↔ e.2 = .handle id
  callbacks : ∀ e ∈ s.callbacks.entries, e.1 ≠ matchId ∧ e.2 ≠ .handle id
  expires : s.requests.contains matchId = true → s.traffic.Waiting expiry
  history : s.history.dispatched.map Prod.fst =
    served.reverse ++ r.history.dispatched.map Prod.fst
  outcome : kept →
    s.requests.contains matchId = (served.findSome? (r.verdict matchId)).isNone ∧
      s.handles.get id = ⟨served.findSome? (r.verdict matchId), false, true⟩

namespace Attends

variable {kept : Prop} {expiry : Call} {served : List Call} {u : Root}

/-- What still waits is still attended to. -/
lemma waits (h : Attends kept r matchId id expiry served s) (hu : StillWaits s u) :
    Attends kept r matchId id expiry served u := by
  obtain ⟨new, hrequests, hnew⟩ := hu.requests
  obtain ⟨new', hcallbacks, hnew'⟩ := hu.callbacks
  have hfresh {e : ℕ × Continuation String}
      (he : (s.ledger.nextId ≤ e.1 ∧ e.1 < u.ledger.nextId) ∧ ∀ id, e.2 = .handle id →
        s.handles.handles.length ≤ id ∧ id < u.handles.handles.length) :
      e.1 ≠ matchId ∧ e.2 ≠ .handle id := by
    refine ⟨?_, fun hid => absurd h.handle (not_lt.mpr (he.2 id hid).1)⟩
    rintro rfl
    exact absurd h.number (not_lt.mpr he.1.1)
  have hcontains : u.requests.contains matchId = s.requests.contains matchId := by
    rw [hrequests]
    unfold CallTable.contains
    rw [List.any_append, Bool.or_eq_right_iff_imp]
    intro hany
    obtain ⟨e, he, hmatch⟩ := List.any_eq_true.mp hany
    exact absurd (beq_iff_eq.mp hmatch) (hfresh (hnew e he)).1
  have hget : u.handles.get id = s.handles.get id := by
    obtain ⟨newHandles, hhandles⟩ := hu.handles
    unfold AsyncStore.get
    rw [hhandles, List.getElem?_append_left h.handle]
  constructor
  case address => exact hu.address.trans h.address
  case convert =>
    rw [hrequests]
    exact h.convert
  case number => exact h.number.trans_le hu.nextId
  case handle => exact h.handle.trans_le hu.length_le
  case requests =>
    rw [hrequests]
    intro e he
    rcases List.mem_append.mp he with he | he
    · have hne := hfresh (hnew e he)
      exact iff_of_false hne.1 hne.2
    · exact h.requests e he
  case callbacks =>
    rw [hcallbacks]
    intro e he
    rcases List.mem_append.mp he with he | he
    · exact hfresh (hnew' e he)
    · exact h.callbacks e he
  case expires =>
    rw [hcontains]
    exact fun hpending => hu.waiting expiry (h.expires hpending)
  case history =>
    rw [hu.dispatched]
    exact h.history
  case outcome =>
    rw [hcontains, hget]
    exact h.outcome

/-- The state of another handle does not matter. -/
lemma touch (h : Attends kept r matchId id expiry served s) {other : HandleId}
    (hother : kept → other ≠ id) (f : Async → Async) :
    Attends kept r matchId id expiry served { s with handles := s.handles.update other f } := by
  refine ⟨h.address, h.convert, h.number, h.handle.trans_eq (List.length_modify ..).symm,
    h.requests, h.callbacks, h.expires, h.history, fun hkept => ?_⟩
  rw [AsyncStore.get_update_of_ne (hother hkept).symm]
  exact h.outcome hkept

/-- A call that waits still waits when another one is taken from the queue. -/
lemma waiting_take {d : Call} {rest : List Call} (hqueue : s.queue = c :: rest) (hne : d ≠ c)
    (h : s.traffic.Waiting d) : (s.take c rest).traffic.Waiting d := by
  refine h.imp_left fun hqueued => ?_
  have hqueued' : d ∈ c :: rest := hqueue ▸ hqueued
  exact (List.mem_cons.mp hqueued').resolve_left hne

/-- A call that is not for the host is served. -/
lemma serve_of_ne (h : Attends kept r matchId id expiry served s)
    (hexpiry : expiry.target = r.timeout) {rest : List Call} (hqueue : s.queue = c :: rest)
    (hhost : c.target ≠ r.host) (htimeout : c.target ≠ r.timeout) :
    Attends kept r matchId id expiry (served ++ [c]) ((s.take c rest).dispatch c) := by
  have htaken : Attends kept r matchId id expiry (served ++ [c]) (s.take c rest) := by
    refine ⟨h.address, h.convert, h.number, h.handle, h.requests, h.callbacks, ?_, ?_, ?_⟩
    · intro hpending
      refine waiting_take hqueue ?_ (h.expires hpending)
      rintro rfl
      exact htimeout hexpiry
    · rw [List.reverse_append]
      exact congrArg (c :: ·) h.history
    · intro hkept
      rw [List.findSome?_append, List.findSome?_singleton, verdict_of_ne hhost htimeout,
        Option.or_none]
      exact h.outcome hkept
  have haddress : (s.take c rest).address = r.address := h.address
  have hchores : Chores (s.take c rest) ((s.take c rest).dispatch c) := by
    refine chores_dispatch_of_ne ?_ ?_
    · unfold host
      rwa [haddress]
    · unfold timeout
      rwa [haddress]
  exact htaken.waits (.chores hchores)

/-- A call for the host is served. -/
lemma serve_of_eq (h : Attends kept r matchId id expiry served s)
    (hexpiry : r.verdict matchId expiry ≠ none) {rest : List Call}
    (hqueue : s.queue = c :: rest) (hfor : c.target = r.host ∨ c.target = r.timeout) :
    Attends kept r matchId id expiry (served ++ [c]) ((s.take c rest).dispatch c) := by
  have hhost : (s.take c rest).host = r.host := congrArg (Endpoint.mk · hostId) h.address
  have htimeout : (s.take c rest).timeout = r.timeout :=
    congrArg (Endpoint.mk · timeoutId) h.address
  have hact : (s.take c rest).hostAct c = r.hostAct c := by
    unfold hostAct
    rw [hhost]
  have htold : Told (r.hostAct c) (s.take c rest) ((s.take c rest).dispatch c) :=
    hact ▸ told_dispatch (by rwa [hhost, htimeout])
  have hsweeps : (r.hostAct c).sweeps = true := sweeps_hostAct r c
  generalize (s.take c rest).dispatch c = u at htold
  obtain ⟨hu, handles, hcallbacks, hrequests, hreaches⟩ := htold
  obtain ⟨hmem, -, hlength⟩ := hcallbacks.le hsweeps
  obtain ⟨hmem', hconvert, hlength'⟩ := hrequests.le hsweeps
  -- An outcome for this request finds no callback and so comes to the table in which it waits.
  have hreach {o : Outcome} (ho : (r.hostAct c).brings .ok = some (matchId, o)) :
      u.requests = ((r.hostAct c).run s.requests handles).1 ∧
        u.handles = ((r.hostAct c).run s.requests handles).2.1 := by
    have hbrings : (r.hostAct c).brings s.requests.convert = some (matchId, o) := by
      rwa [h.convert]
    refine hreaches matchId o hbrings (Bool.eq_false_iff.mpr fun hcontains => ?_)
    obtain ⟨k, hk⟩ := CallTable.contains_iff.mp hcontains
    exact (h.callbacks _ hk).1 rfl
  have haddress : u.address = s.address := by rw [hu]; rfl
  have hledger : u.ledger = s.ledger := by rw [hu]; rfl
  have hhistory : u.history = (s.take c rest).history := by rw [hu]
  have hwaiting : u.traffic.Waiting = (s.take c rest).traffic.Waiting := by rw [hu]; rfl
  have hheld : handles.get id = s.handles.get id := by
    rcases hcallbacks with ⟨-, rfl⟩ | ⟨-, rfl⟩
    · rfl
    · exact TableAct.get_run hsweeps fun e he _ _ => (h.callbacks e he).2
  constructor
  case address => exact haddress.trans h.address
  case convert => exact hconvert.trans h.convert
  case number => exact hledger ▸ h.number
  case handle => exact (h.handle.trans_eq hlength.symm).trans_eq hlength'.symm
  case requests => exact fun e he => h.requests e (hmem' e he)
  case callbacks => exact fun e he => h.callbacks e (hmem e he)
  case expires =>
    intro hpending
    obtain ⟨k, hk⟩ := CallTable.contains_iff.mp hpending
    rw [hwaiting]
    refine waiting_take hqueue ?_ (h.expires (CallTable.contains_iff.mpr ⟨k, hmem' _ hk⟩))
    -- Once the expiry has been served, the request is not pending any more.
    rintro rfl
    obtain ⟨o, ho⟩ := Option.ne_none_iff_exists'.mp hexpiry
    rw [verdict_eq hfor, TableAct.outcomeFor_eq_some] at ho
    rw [(hreach ho).1, TableAct.mem_run_iff hsweeps, h.convert] at hk
    exact hk.2.2 o ho
  case history =>
    rw [hhistory, List.reverse_append]
    exact congrArg (c :: ·) h.history
  case outcome =>
    intro hkept
    obtain ⟨hcontains, hget⟩ := h.outcome hkept
    have hawaited := hrequests.awaited hsweeps (fun o ho => hreach (h.convert ▸ ho)) h.requests
      (h.handle.trans_eq hlength.symm) (hheld.trans hget) hcontains
    rw [List.findSome?_append, List.findSome?_singleton, verdict_eq hfor]
    have hok : (s.take c rest).requests.convert = .ok := h.convert
    rw [hok] at hawaited
    exact hawaited

/-- A call is served. -/
lemma serve (h : Attends kept r matchId id expiry served s)
    (hexpiry : expiry.target = r.timeout) (hverdict : r.verdict matchId expiry ≠ none)
    {rest : List Call} (hqueue : s.queue = c :: rest) :
    Attends kept r matchId id expiry (served ++ [c]) ((s.take c rest).dispatch c) := by
  by_cases hfor : c.target = r.host ∨ c.target = r.timeout
  · exact h.serve_of_eq hverdict hqueue hfor
  · obtain ⟨hhost, htimeout⟩ := not_or.mp hfor
    exact h.serve_of_ne hexpiry hqueue hhost htimeout

/-- Whatever the host does, the request is attended to; its handle has to be left alone, if it is to
be kept. -/
lemma operate (h : Attends kept r matchId id expiry served s)
    (hexpiry : expiry.target = r.timeout) (hverdict : r.verdict matchId expiry ≠ none)
    {o : Operation} (ho : kept → o.handle? ≠ some id) :
    ∃ served, Attends kept r matchId id expiry served (o.run s) := by
  refine Operation.preserve_waits
    (P := fun s => ∃ served, Attends kept r matchId id expiry served s) ?_ ?_ ?_ ⟨served, h⟩
  · exact fun s u hu ⟨served, hs⟩ => ⟨served, hs.waits hu⟩
  · exact fun s c rest hqueue ⟨served, hs⟩ => ⟨_, hs.serve hexpiry hverdict hqueue⟩
  · refine fun other f hother => ⟨served, h.touch (fun hkept heq => ?_) f⟩
    exact ho hkept (heq ▸ hother)

end Attends

/-- What a request with a timeout leaves behind, where all numbers in use were given out. -/
lemma requestWithTimeout_eq (h : r.Booked) (target : Endpoint) (args : List Value)
    (wait : Option Int64) :
    r.requestWithTimeout target args wait =
      (r.handles.handles.length,
        let (c, ledger) := r.ledger.request target r.host r.time args
        let (expiry, ledger) := CallTable.scheduleTimeout ledger c.matchId r.timeout
          (r.time + wait.getD r.config.defaultCallTimeout)
        ({ r with
            ledger := ledger
            requests := { r.requests with
              entries := (c.matchId, .handle r.handles.handles.length) :: r.requests.entries }
            handles := r.handles.create.2 }.send c).send expiry) := by
  have hfree : r.requests.contains r.ledger.nextId = false := by
    rw [Bool.eq_false_iff, ne_eq, CallTable.contains_iff]
    rintro ⟨k, hk⟩
    exact absurd (h.requests _ hk).1 (lt_irrefl _)
  have hregister : r.requests.register (r.ledger.request target r.host r.time args).1
      r.handles.handles.length = .ok { r.requests with
        entries := (r.ledger.nextId, .handle r.handles.handles.length) :: r.requests.entries } := by
    unfold CallTable.register CallTable.insert Ledger.request
    simp [hfree]
  unfold requestWithTimeout awaitCall makeRequest AsyncStore.create
  simp only [hregister]
  rfl

/-- The call that lets a request of the host expire. -/
def expiryOf (r : Root) (target : Endpoint) (args : List Value) (wait : Option Int64) : Call :=
  (CallTable.scheduleTimeout (r.makeRequest target args).2.ledger r.ledger.nextId r.timeout
    (r.time + wait.getD r.config.defaultCallTimeout)).1

/-- The expiry of a request settles it, as match ids are numbers of 64 bits. -/
lemma verdict_expiryOf (hid : r.ledger.nextId < 2 ^ 64) (target : Endpoint) (args : List Value)
    (wait : Option Int64) :
    r.verdict r.ledger.nextId (r.expiryOf target args wait) ≠ none := by
  have hnumber : (UInt64.ofNat r.ledger.nextId).toNat = r.ledger.nextId :=
    UInt64.toNat_ofNat_of_lt' hid
  have hbrings := Correlation.brings_scheduleTimeout (κ := String) .ok
    (r.makeRequest target args).2.ledger (UInt64.ofNat r.ledger.nextId) r.timeout
    (r.time + wait.getD r.config.defaultCallTimeout)
  rw [hnumber] at hbrings
  have htimeout : (r.expiryOf target args wait).target = r.timeout := rfl
  have hact : r.hostAct (r.expiryOf target args wait) =
      .handleTimeout (r.expiryOf target args wait) := by
    refine if_neg fun heq => ?_
    have hne : timeoutId ≠ hostId := by decide
    exact hne (congrArg Endpoint.id (htimeout.symm.trans heq))
  rw [verdict_eq (.inr htimeout), hact]
  exact ne_of_eq_of_ne (TableAct.outcomeFor_eq_some.mpr hbrings) (Option.some_ne_none _)

/-- A request with a timeout is attended to from the beginning. -/
lemma Booked.attends (h : r.Booked) (kept : Prop) (target : Endpoint) (args : List Value)
    (wait : Option Int64) :
    Attends kept r (r.makeRequest target args).1.matchId (r.requestWithTimeout target args wait).1
      (r.expiryOf target args wait) [] (r.requestWithTimeout target args wait).2 := by
  have hmatch : (r.makeRequest target args).1.matchId = r.ledger.nextId := rfl
  have hledger (s : Root) (c : Call) : (s.send c).ledger = s.ledger := by
    unfold send
    split <;> rfl
  rw [requestWithTimeout_eq h, hmatch]
  simp only
  generalize hs : send _ (CallTable.scheduleTimeout _ _ _ _).1 = s
  have hdesk : s.desk = ⟨r.address,
      { r.requests with
        entries := (r.ledger.nextId, .handle r.handles.handles.length) :: r.requests.entries },
      r.callbacks, r.handles.create.2, r.history.dispatched⟩ := by
    rw [← hs]
    exact (desk_send ..).trans (desk_send ..)
  have hnext : s.ledger.nextId = r.ledger.nextId + 2 := by
    rw [← hs, hledger, hledger]
    rfl
  have hwaiting : s.traffic.Waiting (r.expiryOf target args wait) := by
    rw [← hs, traffic_send]
    exact Traffic.waiting_send.mpr (.inl rfl)
  obtain ⟨haddress, hrequests, hcallbacks, hhandles, hdispatched⟩ := Desk.mk.inj hdesk
  have hold {t : CallTable String} (ht : r.Numbers t) {e : ℕ × Continuation String}
      (he : e ∈ t.entries) :
      e.1 ≠ r.ledger.nextId ∧ e.2 ≠ .handle r.handles.handles.length :=
    ⟨(ht e he).1.ne, fun hid => lt_irrefl _ ((ht e he).2 _ hid)⟩
  constructor
  case address => exact haddress
  case convert =>
    rw [hrequests]
    exact h.convert
  case number =>
    omega
  case handle =>
    rw [hhandles]
    simp [AsyncStore.create]
  case requests =>
    rw [hrequests]
    intro e he
    rcases List.mem_cons.mp he with rfl | he
    · exact iff_of_true rfl rfl
    · exact iff_of_false (hold h.requests he).1 (hold h.requests he).2
  case callbacks =>
    rw [hcallbacks]
    exact fun e he => hold h.callbacks he
  case expires => exact fun _ => hwaiting
  case history =>
    rw [hdispatched]
    rfl
  case outcome =>
    refine fun _ => ⟨?_, ?_⟩
    · rw [hrequests]
      simp [CallTable.contains]
    · rw [hhandles]
      simp [AsyncStore.create, AsyncStore.get, Async.fresh]

/-! ## Runs -/

/-- Operations of the host that satisfy a condition, one after the other. -/
def Runs (p : Operation → Prop) : Root → Root → Prop :=
  ReflTransGen fun r s => ∃ o : Operation, o.Admitted r ∧ p o ∧ s = o.run r

/-- A root is idle at a time that is not before a deadline, and all times up to then lie in one
interval. -/
structure IdleAfter (due : Int64) (s : Root) : Prop where
  idle : s.isIdle = true
  time : due ≤ s.time
  within : ∃ lo, s.history.Within lo

/-- The calls that are served while a request of the host is pending, of those that are served from
some moment on at which it is: they end with the first that settles it. -/
def whilePending (r : Root) (matchId : ℕ) : List Call → List Call
  | [] => []
  | c :: rest => c :: if (r.verdict matchId c).isSome then [] else whilePending r matchId rest

/-- Operations lead from one root of a run to another. -/
lemma Runs.reachable {p : Operation → Prop} (h : Runs p r s) (hr : Reachable r) :
    Reachable s := by
  induction h with
  | refl => exact hr
  | tail _ hlast ih =>
    obtain ⟨o, ho, -, rfl⟩ := hlast
    exact .operate ih ho

/-- A request is attended to in the whole run. -/
lemma Runs.attends {kept : Prop} {p : Operation → Prop} {expiry : Call} {u : Root}
    {served : List Call} (h : Runs p s u) (hs : Attends kept r matchId id expiry served s)
    (hexpiry : expiry.target = r.timeout) (hverdict : r.verdict matchId expiry ≠ none)
    (hp : kept → ∀ o, p o → o.handle? ≠ some id) :
    ∃ served, Attends kept r matchId id expiry served u := by
  induction h with
  | refl => exact ⟨served, hs⟩
  | tail _ hlast ih =>
    obtain ⟨served, hs⟩ := ih
    obtain ⟨o, -, ho, rfl⟩ := hlast
    exact hs.operate hexpiry hverdict fun hkept => hp hkept o ho

/-- When a root is idle after the time of a call, the call does not wait any more. -/
lemma IdleAfter.not_waiting (h : IdleAfter c.time s) (hs : Reachable s) :
    ¬s.traffic.Waiting c := by
  obtain ⟨lo, hlo⟩ := h.within
  obtain ⟨d, q, w, ho⟩ := hs.sound.orderly lo hlo
  rintro (hqueued | hscheduled)
  · have hempty : s.queue = [] := List.isEmpty_iff.mp (Bool.and_eq_true_iff.mp h.idle).1
    have hqueued' : c ∈ s.queue := hqueued
    rw [hempty] at hqueued'
    contradiction
  · rw [← ho.scheduled] at hscheduled
    obtain ⟨e, he, rfl⟩ := List.mem_map.mp hscheduled
    exact absurd (Int64.le_iff_toInt_le.mp h.time) (not_le.mpr (ho.ahead e he))

/-- What a timeout brings is always the same. -/
lemma timeoutOf_eq_some {o : Outcome} (h : r.timeoutOf matchId c = some o) :
    o = .error (.timeout ("request " ++ Decimal.ofNat matchId ++ " timed out")) := by
  unfold timeoutOf at h
  split at h
  · obtain ⟨named, -, heq⟩ := Option.map_eq_some_iff.mp (TableAct.outcomeFor_eq_some.mp h)
    cases heq
    rfl
  · contradiction

/-- The first call that settles a request is an answer to it that comes while it is pending, and
otherwise a timeout. -/
lemma outcome_eq {served : List Call} {o : Outcome}
    (h : served.findSome? (r.verdict matchId) = some o) :
    o = ((r.whilePending matchId served).findSome? (r.answerTo matchId)).getD
      (.error (.timeout ("request " ++ Decimal.ofNat matchId ++ " timed out"))) := by
  induction served with
  | nil => contradiction
  | cons c rest ih =>
    unfold whilePending
    rw [List.findSome?_cons] at h
    cases hverdict : r.verdict matchId c with
    | none =>
      rw [hverdict] at h
      have hanswer : r.answerTo matchId c = none := (Option.or_eq_none_iff.mp hverdict).1
      simp only [List.findSome?_cons, hanswer, Option.isSome_none, Bool.false_eq_true, ↓reduceIte]
      exact ih h
    | some o' =>
      rw [hverdict] at h
      cases h
      simp only [List.findSome?_cons, Option.isSome_some, ↓reduceIte, List.findSome?_nil]
      unfold verdict at hverdict
      cases hanswer : r.answerTo matchId c with
      | some a =>
        rw [hanswer] at hverdict
        exact (Option.some.inj hverdict).symm
      | none =>
        rw [hanswer, Option.none_or] at hverdict
        exact timeoutOf_eq_some hverdict

/-- No request outlives its deadline.  A request with a timeout is pending when it has been made;
whatever the host has done since, when the root is idle after the deadline, the request is not
pending any more.  If the host has left the handle alone, the request is pending until a call that
settles it is served, and after the deadline the handle holds an outcome: the answer to the request,
if one was served while the request was pending, and otherwise a timeout.  Match ids are numbers of
64 bits. -/
theorem settled_by_deadline {r : Root} (h : Reachable r) (hid : r.ledger.nextId < 2 ^ 64)
    (target : Endpoint) (args : List Value) (wait : Option Int64) :
    let matchId := (r.makeRequest target args).1.matchId
    let id := (r.requestWithTimeout target args wait).1
    let asked := (Operation.requestWithTimeout target args wait).run r
    let due := r.time + wait.getD r.config.defaultCallTimeout
    asked.requests.contains matchId = true ∧
    (∀ s, Runs (fun _ => True) asked s → s.IdleAfter due →
      s.requests.contains matchId = false) ∧
    ∀ s, Runs (fun o => o.handle? ≠ some id) asked s → ∃ served,
      s.history.dispatched.map Prod.fst = served.reverse ++ r.history.dispatched.map Prod.fst ∧
      (s.requests.contains matchId = true ↔ ∀ c ∈ served, r.verdict matchId c = none) ∧
      (s.IdleAfter due → (s.handles.get id).outcome =
        some (((r.whilePending matchId served).findSome? (r.answerTo matchId)).getD
          (.error (.timeout ("request " ++ Decimal.ofNat matchId ++ " timed out"))))) := by
  intro matchId id asked due
  have hreach : Reachable asked :=
    .operate (o := .requestWithTimeout target args wait) h trivial
  have hstart (kept : Prop) :
      Attends kept r matchId id (r.expiryOf target args wait) [] asked :=
    h.booked.attends kept target args wait
  have hverdict : r.verdict matchId (r.expiryOf target args wait) ≠ none :=
    verdict_expiryOf hid target args wait
  have hlate {kept : Prop} {served : List Call} {s : Root}
      (hs : Attends kept r matchId id (r.expiryOf target args wait) served s)
      (hreach : Reachable s) (hidle : s.IdleAfter due) :
      s.requests.contains matchId = false := by
    rw [Bool.eq_false_iff]
    exact fun hpending => IdleAfter.not_waiting hidle hreach (hs.expires hpending)
  refine ⟨((hstart True).outcome trivial).1, fun s hs hidle => ?_, fun s hs => ?_⟩
  · obtain ⟨served, hattends⟩ := hs.attends (hstart False) rfl hverdict nofun
    exact hlate hattends (hs.reachable hreach) hidle
  · obtain ⟨served, hattends⟩ := hs.attends (hstart True) rfl hverdict fun _ _ ho => ho
    obtain ⟨hcontains, hget⟩ := hattends.outcome trivial
    refine ⟨served, hattends.history, ?_, fun hidle => ?_⟩
    · rw [hcontains, Option.isNone_iff_eq_none, List.findSome?_eq_none_iff]
    · rw [hlate hattends (hs.reachable hreach) hidle] at hcontains
      cases ho : served.findSome? (r.verdict matchId) with
      | none =>
        rw [ho] at hcontains
        contradiction
      | some o => rw [hget, ho, ← outcome_eq ho]

/-- A request of the host to itself. -/
def idleRequest : Call := ⟨1, some ⟨rootPath, hostId⟩, ⟨rootPath, hostId⟩, 0, .request, []⟩

/-- The expiry of that request after five units of time. -/
def idleExpiry : Call := ⟨2, none, ⟨rootPath, timeoutId⟩, 5, .quiet, [.int 1]⟩

/-- A request of the host to itself is never answered; after its deadline its handle holds a
timeout. -/
theorem settled_by_deadline_unanswered :
    ∃ r, Root.new {} .base = .ok r ∧ r.ledger.nextId < 2 ^ 64 ∧
      let s := (Operation.tick 7).run ((Operation.requestWithTimeout r.host [] (some 5)).run r)
      s.IdleAfter 5 ∧ s.requests.contains 1 = false ∧
        (s.handles.get 0).outcome = some (.error (.timeout "request 1 timed out")) := by
  obtain ⟨r, hr⟩ : ∃ r, Root.new {} .base = .ok r := ⟨_, rfl⟩
  have hid : r.ledger.nextId < 2 ^ 64 := by
    cases hr
    decide
  obtain ⟨-, hsettled, houtcome⟩ := settled_by_deadline (.new hr) hid r.host [] (some 5)
  have hhistory : ((Operation.tick 7).run
      ((Operation.requestWithTimeout r.host [] (some 5)).run r)).history =
        ⟨[idleExpiry, idleRequest], [(idleExpiry, 7), (idleRequest, 7)], [7, 0]⟩ := by
    cases hr
    rfl
  have hidle : IdleAfter 5
      ((Operation.tick 7).run ((Operation.requestWithTimeout r.host [] (some 5)).run r)) := by
    refine ⟨?_, ?_, 0, ?_⟩
    · cases hr
      rfl
    · cases hr
      decide
    · rw [hhistory]
      exact ⟨by simp [InSpan], by simp [InSpan, idleExpiry, idleRequest]⟩
  refine ⟨r, hr, hid, hidle, ?_⟩
  obtain ⟨served, hserved, -, hheld⟩ :=
    houtcome _ (.single ⟨.tick 7, trivial, by simp [Operation.handle?], rfl⟩)
  rw [hhistory] at hserved
  have hcalls : served = [idleRequest, idleExpiry] := by
    have hnone : r.history.dispatched = [] := by
      cases hr
      rfl
    rw [hnone] at hserved
    simpa using congrArg List.reverse hserved.symm
  subst hcalls
  cases hr
  exact ⟨hsettled _ (.single ⟨.tick 7, trivial, trivial, rfl⟩) hidle, hheld hidle⟩

end Root

end Switchboard
