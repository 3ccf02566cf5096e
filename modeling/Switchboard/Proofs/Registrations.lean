import Mathlib
import Switchboard.CallTable

/-!
# Registrations and their outcomes

A call table only holds what is still waited for.  Here it is compared with a register of all
registrations that it has ever accepted (`Correlation`), in which every registration has a fate: it
is waiting, its continuation was given an outcome, or it was removed without one.
`Registration.fateAfter` says what each act makes of the fate of a registration, and the main
theorem `registrations_resolve` that the table does exactly that, whatever is done with the table
and with the handles, and in whatever order.

The invariant is that the entries of the table are the waiting registrations, no two of them under
one match id (`Correlation.Faithful`).
-/

namespace Switchboard

/-! ## Handles and entries -/

namespace AsyncStore

variable {s : AsyncStore} {id other : HandleId} {f : Async → Async}

/-- A handle that is changed. -/
lemma get_update_self (h : id < s.handles.length) : (s.update id f).get id = f (s.get id) := by
  unfold get update
  simp [h]

/-- The other handles do not change. -/
lemma get_update_of_ne (h : other ≠ id) : (s.update id f).get other = s.get other := by
  unfold get update
  simp [h.symm]

end AsyncStore

/-- What is found for a match id is an entry. -/
lemma CallTable.mem_of_find? {κ : Type} {t : CallTable κ} {matchId : ℕ} {k : Continuation κ}
    (h : t.find? matchId = some k) : (matchId, k) ∈ t.entries := by
  obtain ⟨e, he, rfl⟩ := Option.map_eq_some_iff.mp h
  have hkey : e.1 = matchId := by simpa using List.find?_some he
  exact hkey ▸ List.mem_of_find?_eq_some he

/-! ## Registrations -/

/-- What has become of a registration. -/
inductive Fate where
  | waiting
  /-- Its continuation was given this outcome. -/
  | invoked (o : Outcome)
  /-- It was removed, and nothing was invoked. -/
  | removed

/-- A registration that a table has accepted. -/
structure Registration (κ : Type) where
  matchId : ℕ
  continuation : Continuation κ
  fate : Fate

namespace Continuation

variable {κ : Type}

/-- The callback that is due when a continuation is given an outcome. -/
def due? (o : Outcome) : Continuation κ → Option (κ × Outcome)
  | .callback token => some (token, o)
  | .handle _ => none

/-- The handles when a continuation is given an outcome. -/
def offer (handles : AsyncStore) (o : Outcome) : Continuation κ → AsyncStore
  | .callback _ => handles
  | .handle id => (handles.resolve id o).2

end Continuation

/-- Something that is done with a table or with a handle. -/
inductive TableAct (κ : Type) where
  | register (c : Call) (id : HandleId)
  | registerCallback (c : Call) (token : κ)
  | handle (c : Call)
  | handleTimeout (c : Call)
  | cancel (matchId : ℕ)
  | purge
  | createHandle
  /-- An outcome that somebody other than the table gives a handle. -/
  | resolveHandle (id : HandleId) (o : Outcome)
  | cancelHandle (id : HandleId)
  | dropHandle (id : HandleId)
  | takeOutcome (id : HandleId)

namespace TableAct

variable {κ : Type}

/-- What an act asks a table to register. -/
def registers : TableAct κ → Option (Call × Continuation κ)
  | .register c id => some (c, .handle id)
  | .registerCallback c token => some (c, .callback token)
  | _ => none

/-- The match id and the outcome that an act brings.  A reply is converted, an error is the first
element of its payload, and a timeout is a fault of its own. -/
def brings (convert : List Value → Outcome) : TableAct κ → Option (ℕ × Outcome)
  | .handle c =>
    match c.kind with
    | .reply => some (c.matchId, convert c.args)
    | .error => some (c.matchId, .error (.ofArgs c.args))
    | _ => none
  | .handleTimeout c =>
    (CallTable.idOfValue? (c.argAt 0)).map fun matchId =>
      (matchId, .error (.timeout ("request " ++ Decimal.ofNat matchId ++ " timed out")))
  | _ => none

/-- Whether an act first removes what nobody waits for any more. -/
def sweeps : TableAct κ → Bool
  | .handle _ => true
  | .handleTimeout _ => true
  | .purge => true
  | _ => false

/-- The match id whose entry an act removes. -/
def cancels : TableAct κ → Option ℕ
  | .cancel matchId => some matchId
  | _ => none

/-- What an act on a handle does to the handles. -/
def onHandles (handles : AsyncStore) : TableAct κ → AsyncStore
  | .createHandle => handles.create.2
  | .resolveHandle id o => (handles.resolve id o).2
  | .cancelHandle id => handles.cancel id
  | .dropHandle id => handles.drop id
  | .takeOutcome id => (handles.take id).2
  | _ => handles

/-- The table and the handles after an act, with the callback that is due. -/
def run (t : CallTable κ) (handles : AsyncStore) (a : TableAct κ) :
    CallTable κ × AsyncStore × Option (κ × Outcome) :=
  match a with
  | .register c id => (((t.register c id).toOption).getD t, handles, none)
  | .registerCallback c token => (((t.registerCallback c token).toOption).getD t, handles, none)
  | .handle c =>
    let d := t.handle handles c
    (d.table, d.handles, d.due)
  | .handleTimeout c =>
    let d := t.handleTimeout handles c
    (d.table, d.handles, d.due)
  | .cancel matchId => (t.erase matchId, handles, none)
  | .purge => (t.purge handles, handles, none)
  | a => (t, a.onHandles handles, none)

end TableAct

/-- A table and its handles, with all that the table has been asked to wait for. -/
structure Correlation (κ : Type) where
  table : CallTable κ
  handles : AsyncStore := {}
  /-- The callbacks that were due, with their outcomes, the last one first. -/
  due : List (κ × Outcome) := []
  /-- The registrations that the table has accepted, the last one first. -/
  registered : List (Registration κ) := []

namespace Registration

variable {κ : Type}

/-- The entry of a registration that is waiting. -/
def pending? (g : Registration κ) : Option (ℕ × Continuation κ) :=
  match g.fate with
  | .waiting => some (g.matchId, g.continuation)
  | _ => none

/-- The callback of a registration that was given an outcome. -/
def due? (g : Registration κ) : Option (κ × Outcome) :=
  match g.fate with
  | .invoked o => g.continuation.due? o
  | _ => none

/-- Whether nobody waits for the outcome of a registration any more. -/
def isDead (s : Correlation κ) (g : Registration κ) : Bool :=
  s.table.isDead s.handles g.continuation

/-- What an act makes of the fate of a registration.  Only a waiting one has a fate to come: it is
removed when it is cancelled, or found dead, and else given the outcome that comes for its
match id. -/
def fateAfter (s : Correlation κ) (a : TableAct κ) (g : Registration κ) : Fate :=
  match g.fate with
  | .waiting =>
    if a.sweeps && g.isDead s then .removed
    else if a.cancels = some g.matchId then .removed
    else match a.brings s.table.convert with
      | some (matchId, o) => if matchId = g.matchId then .invoked o else .waiting
      | none => .waiting
  | fate => fate

/-- A registration after an act. -/
def after (s : Correlation κ) (a : TableAct κ) (g : Registration κ) : Registration κ :=
  { g with fate := g.fateAfter s a }

/-- The continuation of a registration that an act invokes, with its outcome. -/
def invocation? (s : Correlation κ) (a : TableAct κ) (g : Registration κ) :
    Option (Continuation κ × Outcome) :=
  match g.fate, g.fateAfter s a with
  | .waiting, .invoked o => some (g.continuation, o)
  | _, _ => none

end Registration

namespace Correlation

variable {κ : Type}

/-- The registration that an act adds, where the table accepts it. -/
def accepted? (s : Correlation κ) (a : TableAct κ) : Option (Registration κ) :=
  a.registers.bind fun (c, k) =>
    (s.table.insert c k).toOption.map fun _ => ⟨c.matchId, k, .waiting⟩

/-- The continuations that an act invokes, each with its outcome. -/
def invocations (s : Correlation κ) (a : TableAct κ) : List (Continuation κ × Outcome) :=
  s.registered.filterMap (Registration.invocation? s a)

/-- What an act comes to. -/
def step (s : Correlation κ) (a : TableAct κ) : Correlation κ :=
  let (table, handles, due) := a.run s.table s.handles
  { table := table
    handles := handles
    due := due.toList ++ s.due
    registered := (s.accepted? a).toList ++ s.registered.map (Registration.after s a) }

/-- A table that has not been asked for anything yet. -/
def new (retention : Retention) (convert : List Value → Outcome) : Correlation κ :=
  { table := ⟨retention, convert, []⟩ }

/-- What acts come to, one after the other. -/
def run (s : Correlation κ) (acts : List (TableAct κ)) : Correlation κ := acts.foldl step s

/-- Whether a table holds what the register says. -/
structure Faithful (s : Correlation κ) : Prop where
  entries : s.table.entries = s.registered.filterMap Registration.pending?
  distinct : (s.table.entries.map Prod.fst).Nodup
  due : s.due.Perm (s.registered.filterMap Registration.due?)

/-! ## Entries -/

section Entries

variable {s : Correlation κ} {a : TableAct κ}

/-- The entries that an act leaves of those that a table has. -/
def stays (s : Correlation κ) (a : TableAct κ) (e : ℕ × Continuation κ) : Bool :=
  !(a.sweeps && s.table.isDead s.handles e.2) && (a.cancels != some e.1) &&
    ((a.brings s.table.convert).map Prod.fst != some e.1)

/-- A registration that stays in the table is one whose entry stays. -/
lemma pending?_after (g : Registration κ) :
    (g.after s a).pending? = g.pending?.filter (s.stays a) := by
  obtain ⟨matchId, k, fate⟩ := g
  cases fate with
  | waiting =>
    have hentry : (⟨matchId, k, .waiting⟩ : Registration κ).pending? = some (matchId, k) := rfl
    rw [hentry, Option.filter_some]
    unfold Registration.after Registration.fateAfter Registration.isDead stays
    by_cases hdead : (a.sweeps && s.table.isDead s.handles k) = true
    · simp [hdead, Registration.pending?]
    · by_cases hcancel : a.cancels = some matchId
      · simp [hdead, hcancel, Registration.pending?]
      · cases hbrings : a.brings s.table.convert with
        | none => simp [hdead, hcancel, Registration.pending?]
        | some e =>
          by_cases hmatch : e.1 = matchId <;> simp [hdead, hcancel, hmatch, Registration.pending?]
  | invoked o => rfl
  | removed => rfl

/-- The entries of the registrations after an act. -/
lemma filterMap_pending?_after (gs : List (Registration κ)) :
    (gs.map (Registration.after s a)).filterMap Registration.pending? =
      (gs.filterMap Registration.pending?).filter (s.stays a) := by
  rw [List.filterMap_map, List.filter_filterMap]
  exact congrFun (congrArg List.filterMap (funext fun g => pending?_after g)) gs

end Entries

/-! ## What an act does to a table -/

section Effects

variable {t : CallTable κ} {handles : AsyncStore} {a : TableAct κ}

/-- A table to which an outcome comes for a match id. -/
def deliver (t : CallTable κ) (handles : AsyncStore) (matchId : ℕ) (o : Outcome) :
    CallTable κ × AsyncStore × Option (κ × Outcome) :=
  match t.find? matchId with
  | none => (t, handles, none)
  | some k => (t.erase matchId, k.offer handles o, k.due? o)

/-- An entry that is resolved leaves the table, and its continuation is given the outcome. -/
lemma resolve_eq (t : CallTable κ) (handles : AsyncStore) (matchId : ℕ) (k : Continuation κ)
    (o : Outcome) :
    ((t.resolve handles matchId k o).table, (t.resolve handles matchId k o).handles,
      (t.resolve handles matchId k o).due) = (t.erase matchId, k.offer handles o, k.due? o) := by
  cases k <;> rfl

/-- A reply, an error or a timeout brings its outcome to what is left after a sweep. -/
lemma run_of_brings {matchId : ℕ} {o : Outcome} (h : a.brings t.convert = some (matchId, o)) :
    a.run t handles = deliver (t.purge handles) handles matchId o := by
  cases a with
  | handle c =>
    have hresponse : c.isResponse = true ∧ c.matchId = matchId ∧ t.outcomeOf c = o := by
      cases hkind : c.kind <;>
        simp_all [TableAct.brings, Call.isResponse, CallTable.outcomeOf]
    obtain ⟨hresponse, rfl, rfl⟩ := hresponse
    unfold TableAct.run deliver CallTable.handle
    cases hfind : (t.purge handles).find? c.matchId with
    | none => simp [hresponse, hfind]
    | some k =>
      simp only [hresponse, hfind, Bool.not_true, Bool.false_eq_true, ↓reduceIte]
      exact resolve_eq ..
  | handleTimeout c =>
    obtain ⟨named, hid, heq⟩ := Option.map_eq_some_iff.mp h
    obtain ⟨rfl, rfl⟩ := Prod.mk.inj heq
    unfold TableAct.run deliver CallTable.handleTimeout
    cases hfind : (t.purge handles).find? named with
    | none => simp [hid, hfind]
    | some k =>
      simp only [hid, hfind]
      exact resolve_eq ..
  | _ => contradiction

/-- A sweep that comes without an outcome. -/
lemma run_of_sweeps (hsweeps : a.sweeps = true) (h : a.brings t.convert = none) :
    a.run t handles = (t.purge handles, handles, none) := by
  cases a with
  | handle c =>
    have hresponse : c.isResponse = false := by
      cases hkind : c.kind <;> simp_all [TableAct.brings, Call.isResponse]
    unfold TableAct.run CallTable.handle
    simp [hresponse]
  | handleTimeout c =>
    have hid : CallTable.idOfValue? (c.argAt 0) = none := Option.map_eq_none_iff.mp h
    unfold TableAct.run CallTable.handleTimeout
    simp [hid]
  | purge => rfl
  | _ => contradiction

/-- Only an act that sweeps brings an outcome. -/
lemma sweeps_of_brings {convert : List Value → Outcome} {b : ℕ × Outcome}
    (h : a.brings convert = some b) : a.sweeps = true := by
  cases a <;> first | rfl | contradiction

/-- An act that sweeps leaves the handles to the table. -/
lemma onHandles_of_sweeps (h : a.sweeps = true) : a.onHandles handles = handles := by
  cases a <;> first | rfl | contradiction

/-- What an act without a sweep does to the entries. -/
lemma entries_run_of_not_sweeps (h : a.sweeps = false) :
    (a.run t handles).1.entries =
      (a.registers.bind fun (c, k) => (t.insert c k).toOption.map fun _ => (c.matchId, k)).toList ++
        t.entries.filter fun e => a.cancels != some e.1 := by
  have hkept : t.entries.filter (fun e => (none : Option ℕ) != some e.1) = t.entries :=
    List.filter_eq_self.mpr fun _ _ => rfl
  have hinsert (c : Call) (k : Continuation κ) :
      (((t.insert c k).toOption).getD t).entries =
        ((t.insert c k).toOption.map fun _ => (c.matchId, k)).toList ++ t.entries := by
    unfold CallTable.insert
    split_ifs <;> rfl
  cases a with
  | register c id => exact (hinsert c (.handle id)).trans (congrArg _ hkept.symm)
  | registerCallback c token => exact (hinsert c (.callback token)).trans (congrArg _ hkept.symm)
  | cancel matchId =>
    refine List.filter_congr fun e _ => ?_
    simp [TableAct.cancels, bne, eq_comm (a := matchId)]
  | handle c => contradiction
  | handleTimeout c => contradiction
  | purge => contradiction
  | _ => exact hkept.symm

/-- An act without a sweep makes no callback due. -/
lemma effects_run_of_not_sweeps (h : a.sweeps = false) :
    (a.run t handles).2 = (a.onHandles handles, none) := by
  cases a <;> first | rfl | contradiction

/-- An outcome that comes for a match id leaves the other entries. -/
lemma entries_deliver (matchId : ℕ) (o : Outcome) :
    (deliver t handles matchId o).1.entries = t.entries.filter fun e => e.1 != matchId := by
  unfold deliver
  cases hfind : t.find? matchId with
  | none =>
    unfold CallTable.find? at hfind
    refine (List.filter_eq_self.mpr fun e he => ?_).symm
    have habsent := List.find?_eq_none.mp (Option.map_eq_none_iff.mp hfind) e he
    simpa using habsent
  | some k => rfl

/-- No act changes how a table keeps its entries and converts replies. -/
lemma run_settings (t : CallTable κ) (handles : AsyncStore) (a : TableAct κ) :
    (a.run t handles).1.retention = t.retention ∧ (a.run t handles).1.convert = t.convert := by
  have hinsert (c : Call) (k : Continuation κ) :
      (((t.insert c k).toOption).getD t).retention = t.retention ∧
        (((t.insert c k).toOption).getD t).convert = t.convert := by
    unfold CallTable.insert
    split_ifs <;> exact ⟨rfl, rfl⟩
  cases hbrings : a.brings t.convert with
  | some b =>
    rw [run_of_brings hbrings]
    unfold deliver
    split <;> exact ⟨rfl, rfl⟩
  | none =>
    cases hsweeps : a.sweeps with
    | true => exact run_of_sweeps hsweeps hbrings ▸ ⟨rfl, rfl⟩
    | false =>
      cases a with
      | register c id => exact hinsert c (.handle id)
      | registerCallback c token => exact hinsert c (.callback token)
      | handle c => contradiction
      | handleTimeout c => contradiction
      | _ => exact ⟨rfl, rfl⟩

end Effects

/-! ## What an act invokes -/

section Invocations

variable {s : Correlation κ} {a : TableAct κ}

/-- An act invokes the waiting registration that is not dead and whose match id it brings an
outcome for. -/
theorem invocation?_eq_some_iff {g : Registration κ} {k : Continuation κ} {o : Outcome} :
    g.invocation? s a = some (k, o) ↔
      g.fate = .waiting ∧ g.isDead s = false ∧ a.brings s.table.convert = some (g.matchId, o) ∧
        k = g.continuation := by
  obtain ⟨matchId, kept, fate⟩ := g
  cases fate with
  | waiting =>
    unfold Registration.invocation? Registration.fateAfter
    cases hbrings : a.brings s.table.convert with
    | none => split_ifs <;> simp
    | some b =>
      have hsweeps : a.sweeps = true := sweeps_of_brings hbrings
      have hcancels : a.cancels = none := by cases a <;> first | rfl | contradiction
      by_cases hdead : Registration.isDead s ⟨matchId, kept, .waiting⟩ = true
      · simp [hsweeps, hdead]
      · by_cases hmatch : b.1 = matchId
        · simp only [hsweeps, hdead, hcancels, hmatch, Bool.and_false, Bool.false_eq_true,
            reduceCtorEq, ↓reduceIte, Option.some.injEq, Prod.mk.injEq, true_and]
          obtain ⟨named, brought⟩ := b
          obtain rfl : named = matchId := hmatch
          simp only [Prod.mk.injEq, true_and]
          exact ⟨fun ⟨hk, ho⟩ => ⟨ho, hk.symm⟩, fun ⟨ho, hk⟩ => ⟨hk.symm, ho⟩⟩
        · have hother : b ≠ (matchId, o) := fun heq => hmatch (congrArg Prod.fst heq)
          simp [hdead, hcancels, hmatch, hother]
  | invoked _ => simp [Registration.invocation?]
  | removed => simp [Registration.invocation?]

/-- Nothing is invoked by an act that brings no outcome. -/
lemma invocations_of_brings_none (h : a.brings s.table.convert = none) : s.invocations a = [] := by
  refine List.filterMap_eq_nil_iff.mpr fun g _ => ?_
  refine Option.eq_none_iff_forall_ne_some.mpr fun e he => ?_
  obtain ⟨-, -, hbrings, -⟩ := invocation?_eq_some_iff.mp he
  exact absurd (h.symm.trans hbrings) nofun

/-- What is invoked are the live entries of the match id that an outcome comes for. -/
lemma invocations_of_brings (hs : s.Faithful) {matchId : ℕ} {o : Outcome}
    (h : a.brings s.table.convert = some (matchId, o)) :
    s.invocations a =
      ((s.table.purge s.handles).entries.filter fun e => e.1 == matchId).map fun e => (e.2, o) := by
  have hentry (g : Registration κ) :
      g.invocation? s a =
        ((g.pending?.filter fun e => !s.table.isDead s.handles e.2).filter
          fun e => e.1 == matchId).map fun e => (e.2, o) := by
    obtain ⟨named, k, fate⟩ := g
    refine Option.ext fun e => invocation?_eq_some_iff.trans ?_
    cases fate with
    | waiting =>
      have hentry : (⟨named, k, .waiting⟩ : Registration κ).pending? = some (named, k) := rfl
      rw [hentry, h, Option.filter_some]
      by_cases hdead : s.table.isDead s.handles k = true
      · simp [Registration.isDead, hdead]
      · by_cases hmatch : named = matchId
        · obtain ⟨invoked, brought⟩ := e
          subst hmatch
          simp only [Registration.isDead, hdead, Bool.not_false, ↓reduceIte, Option.filter_some,
            beq_self_eq_true, Option.map_some, Option.some.injEq, Prod.mk.injEq, true_and]
          exact ⟨fun ⟨ho, hk⟩ => ⟨hk.symm, ho⟩, fun ⟨hk, ho⟩ => ⟨ho, hk.symm⟩⟩
        · simp [Registration.isDead, hdead, hmatch, Ne.symm hmatch]
    | invoked _ => simp [Registration.pending?]
    | removed => simp [Registration.pending?]
  unfold invocations CallTable.purge
  rw [hs.entries, List.filter_filterMap, List.filter_filterMap, List.map_filterMap]
  exact congrFun (congrArg List.filterMap (funext hentry)) s.registered

/-- Among entries with different match ids, those of one match id are the one that is found. -/
lemma filter_eq_find? {entries : List (ℕ × Continuation κ)} (h : (entries.map Prod.fst).Nodup)
    (matchId : ℕ) :
    entries.filter (fun e => e.1 == matchId) =
      (entries.find? fun e => e.1 == matchId).toList := by
  induction entries with
  | nil => rfl
  | cons e entries ih =>
    obtain ⟨hnew, h⟩ := List.nodup_cons.mp h
    by_cases hmatch : e.1 = matchId
    · have hothers : entries.filter (fun e => e.1 == matchId) = [] := by
        refine List.filter_eq_nil_iff.mpr fun other hother heq => hnew ?_
        rw [hmatch, ← beq_iff_eq.mp heq]
        exact List.mem_map_of_mem hother
      simp [hmatch, hothers]
    · simp [hmatch, ih h]

/-- The entries after an act are those that it adds and those that it leaves. -/
lemma entries_run :
    (a.run s.table s.handles).1.entries =
      (s.accepted? a).toList.filterMap Registration.pending? ++
        s.table.entries.filter (s.stays a) := by
  cases hsweeps : a.sweeps with
  | false =>
    have hbrings : a.brings s.table.convert = none := by
      cases hb : a.brings s.table.convert with
      | none => rfl
      | some b => exact absurd (sweeps_of_brings hb) (by simp [hsweeps])
    have hstays : s.stays a = fun e => a.cancels != some e.1 := by
      funext e
      simp [stays, hsweeps, hbrings]
    have hadded : (s.accepted? a).toList.filterMap Registration.pending? =
        (a.registers.bind fun (c, k) =>
          (s.table.insert c k).toOption.map fun _ => (c.matchId, k)).toList := by
      unfold accepted?
      cases a.registers with
      | none => rfl
        | some e =>
        cases hinsert : (s.table.insert e.1 e.2).toOption <;>
          simp [hinsert, Registration.pending?]
    rw [entries_run_of_not_sweeps hsweeps, hstays, hadded]
  | true =>
    have hadded : s.accepted? a = none := by
      have hregisters : a.registers = none := by cases a <;> first | rfl | contradiction
      simp [accepted?, hregisters]
    have hcancels : a.cancels = none := by cases a <;> first | rfl | contradiction
    rw [hadded]
    cases hbrings : a.brings s.table.convert with
    | none =>
      rw [run_of_sweeps hsweeps hbrings]
      refine List.filter_congr fun e _ => ?_
      simp [stays, hsweeps, hcancels, hbrings]
    | some b =>
      rw [run_of_brings hbrings, entries_deliver]
      unfold CallTable.purge
      rw [List.filter_filter]
      refine List.filter_congr fun e _ => ?_
      have hside : (e.1 != b.1) = (some b.1 != some e.1) := by
        simp [bne, beq_eq_beq, eq_comm]
      have huncancelled : ((none : Option ℕ) != some e.1) = true := rfl
      simp [stays, hsweeps, hcancels, hbrings, hside, huncancelled, Bool.and_comm]

/-- At most one continuation is invoked by an act. -/
theorem length_invocations_le_one (hs : s.Faithful) : (s.invocations a).length ≤ 1 := by
  cases hbrings : a.brings s.table.convert with
  | none => simp [invocations_of_brings_none hbrings]
  | some b =>
    have hpurged : ((s.table.purge s.handles).entries.map Prod.fst).Nodup :=
      hs.distinct.sublist (List.filter_sublist.map _)
    rw [invocations_of_brings hs hbrings, filter_eq_find? hpurged, List.length_map]
    cases ((s.table.purge s.handles).entries.find? fun e => e.1 == b.1) <;> simp

/-- The handles after an act are those to which the invoked continuation has offered its outcome,
and the callback that is due is the invoked one. -/
theorem effects_run (hs : s.Faithful) :
    (a.run s.table s.handles).2.1 =
        (s.invocations a).foldl (fun handles e => e.1.offer handles e.2)
          (a.onHandles s.handles) ∧
      (a.run s.table s.handles).2.2.toList =
        (s.invocations a).filterMap fun e => e.1.due? e.2 := by
  cases hbrings : a.brings s.table.convert with
  | none =>
    rw [invocations_of_brings_none hbrings]
    cases hsweeps : a.sweeps with
    | false => rw [effects_run_of_not_sweeps hsweeps]; exact ⟨rfl, rfl⟩
    | true =>
      rw [run_of_sweeps hsweeps hbrings, onHandles_of_sweeps hsweeps]
      exact ⟨rfl, rfl⟩
  | some b =>
    have hpurged : ((s.table.purge s.handles).entries.map Prod.fst).Nodup :=
      hs.distinct.sublist (List.filter_sublist.map _)
    rw [run_of_brings hbrings, invocations_of_brings hs hbrings, filter_eq_find? hpurged,
      onHandles_of_sweeps (sweeps_of_brings hbrings)]
    unfold deliver CallTable.find?
    cases hfind : (s.table.purge s.handles).entries.find? fun e => e.1 == b.1 with
    | none => exact ⟨rfl, rfl⟩
    | some e => cases hk : e.2 <;> simp [hk, Continuation.due?, Continuation.offer]

end Invocations

/-! ## Runs -/

section Runs

variable {s : Correlation κ} {a : TableAct κ}

/-- A request is accepted exactly if no registration waits for its match id. -/
theorem accepted?_eq_some_iff (hs : s.Faithful) {c : Call} {k : Continuation κ}
    (h : a.registers = some (c, k)) {g : Registration κ} :
    s.accepted? a = some g ↔
      g = ⟨c.matchId, k, .waiting⟩ ∧ c.kind = .request ∧
        ∀ g ∈ s.registered, g.fate = .waiting → g.matchId ≠ c.matchId := by
  have hcontains : s.table.contains c.matchId = true ↔
      ∃ g ∈ s.registered, g.fate = .waiting ∧ g.matchId = c.matchId := by
    unfold CallTable.contains
    rw [hs.entries, List.any_filterMap, List.any_eq_true]
    refine exists_congr fun g => and_congr_right fun _ => ?_
    cases hfate : g.fate <;> simp [Registration.pending?, hfate]
  have hnone : (∀ g ∈ s.registered, g.fate = .waiting → g.matchId ≠ c.matchId) ↔
      s.table.contains c.matchId = false := by
    rw [← Bool.not_eq_true, hcontains]
    push Not
    rfl
  rw [hnone]
  have haccepted : s.accepted? a =
      (s.table.insert c k).toOption.map fun _ => ⟨c.matchId, k, .waiting⟩ := by
    simp [accepted?, h]
  rw [haccepted]
  unfold CallTable.insert
  by_cases hkind : c.kind = .request
  · cases hc : s.table.contains c.matchId with
    | true => simp [hkind, Except.toOption]
    | false =>
      simp only [hkind, Except.toOption, ne_eq, not_true_eq_false, Bool.false_eq_true, ↓reduceIte,
        Option.map_some, Option.some.injEq, and_self, and_true]
      exact eq_comm
  · simp [hkind, Except.toOption]

/-- A registration that was given its outcome keeps it, and of the others an act makes those due
that it invokes. -/
lemma due?_after (g : Registration κ) :
    (g.after s a).due? =
      (g.due?).or ((g.invocation? s a).bind fun e => e.1.due? e.2) ∧
      (g.due? = none ∨ g.invocation? s a = none) := by
  obtain ⟨matchId, k, fate⟩ := g
  cases fate with
  | waiting =>
    have hwaiting : (⟨matchId, k, .waiting⟩ : Registration κ).due? = none := rfl
    rw [hwaiting]
    refine ⟨?_, .inl rfl⟩
    unfold Registration.after Registration.due? Registration.invocation?
    cases Registration.fateAfter s a ⟨matchId, k, .waiting⟩ <;> rfl
  | invoked o => exact ⟨(Option.or_none).symm, .inr rfl⟩
  | removed => exact ⟨rfl, .inl rfl⟩

/-- The callbacks that are due after an act are those that it makes due and the earlier ones. -/
lemma due_after (gs : List (Registration κ)) :
    ((gs.map (Registration.after s a)).filterMap Registration.due?).Perm
      (((gs.filterMap (Registration.invocation? s a)).filterMap fun e => e.1.due? e.2) ++
        gs.filterMap Registration.due?) := by
  induction gs with
  | nil => rfl
  | cons g gs ih =>
    obtain ⟨hafter, hone⟩ := due?_after (s := s) (a := a) g
    simp only [List.map_cons, List.filterMap_cons, hafter]
    cases hinvocation : g.invocation? s a with
    | none =>
      cases hdue : g.due? with
      | none => exact ih
      | some e => exact (ih.cons e).trans List.perm_middle.symm
    | some e =>
      obtain hdue | hnone := hone
      · rw [hdue]
        cases hk : e.1.due? e.2 with
        | none => simpa [hk] using ih
        | some d => simpa [hk] using ih.cons d
      · exact absurd (hinvocation.symm.trans hnone) nofun

/-- A table that holds what the register says does so after every act. -/
theorem Faithful.step (hs : s.Faithful) (a : TableAct κ) : (s.step a).Faithful := by
  have hentries : (s.step a).table.entries =
      (s.step a).registered.filterMap Registration.pending? := by
    refine (entries_run (s := s) (a := a)).trans ?_
    rw [hs.entries, ← filterMap_pending?_after, ← List.filterMap_append]
    rfl
  refine ⟨hentries, ?_, ?_⟩
  · -- A new entry has a match id that the others, which were there before, do not have.
    have hold : ((s.table.entries.filter (s.stays a)).map Prod.fst).Nodup :=
      hs.distinct.sublist (List.filter_sublist.map _)
    refine (congrArg List.Nodup (congrArg (List.map Prod.fst) entries_run)).mpr ?_
    cases hregisters : a.registers with
    | none => simpa [accepted?, hregisters] using hold
    | some e =>
      cases haccepted : s.accepted? a with
      | none => simpa using hold
      | some g =>
        obtain ⟨rfl, -, hnew⟩ := (accepted?_eq_some_iff hs hregisters).mp haccepted
        refine List.nodup_cons.mpr ⟨fun hmem => ?_, hold⟩
        obtain ⟨e', he', hsame⟩ := List.mem_map.mp hmem
        have hentry := hs.entries ▸ List.mem_of_mem_filter he'
        obtain ⟨g, hg, hge⟩ := List.mem_filterMap.mp hentry
        unfold Registration.pending? at hge
        split at hge
        · next hwaiting =>
          cases hge
          exact hnew g hg hwaiting hsame
        · contradiction
  · have hwaiting : (s.accepted? a).toList.filterMap Registration.due? = [] := by
      unfold accepted?
      cases a.registers with
      | none => rfl
      | some e =>
        cases hinsert : (s.table.insert e.1 e.2).toOption <;> simp [hinsert, Registration.due?]
    have hdue : (s.step a).due =
        ((s.invocations a).filterMap fun e => e.1.due? e.2) ++ s.due := by
      rw [← (effects_run hs).2]
      rfl
    have hregistered : (s.step a).registered =
        (s.accepted? a).toList ++ s.registered.map (Registration.after s a) := rfl
    rw [hdue, hregistered, List.filterMap_append, hwaiting, List.nil_append]
    exact (hs.due.append_left _).trans (due_after s.registered).symm

/-- Every table holds what the register says, whatever has been done with it. -/
theorem faithful_run (retention : Retention) (convert : List Value → Outcome)
    (acts : List (TableAct κ)) : ((new retention convert).run acts).Faithful := by
  suffices ∀ s : Correlation κ, s.Faithful → (s.run acts).Faithful from
    this _ ⟨rfl, List.nodup_nil, .nil⟩
  induction acts with
  | nil => exact fun _ hs => hs
  | cons a acts ih => exact fun s hs => ih (s.step a) (hs.step a)

/-- A table keeps its retention and its converter. -/
lemma settings_run (s : Correlation κ) (acts : List (TableAct κ)) :
    (s.run acts).table.retention = s.table.retention ∧
      (s.run acts).table.convert = s.table.convert := by
  induction acts generalizing s with
  | nil => exact ⟨rfl, rfl⟩
  | cons a acts ih =>
    obtain ⟨hretention, hconvert⟩ := ih (s.step a)
    obtain ⟨hretention', hconvert'⟩ := run_settings s.table s.handles a
    exact ⟨hretention.trans hretention', hconvert.trans hconvert'⟩

/-- A registration keeps its match id and its continuation, and once it has a fate, that too. -/
theorem settled_run (s : Correlation κ) (acts : List (TableAct κ)) :
    ∃ (recent : List (Registration κ)) (later : Registration κ → Registration κ),
      (s.run acts).registered = recent ++ s.registered.map later ∧
        ∀ g, (later g).matchId = g.matchId ∧ (later g).continuation = g.continuation ∧
          (g.fate ≠ .waiting → later g = g) := by
  induction acts generalizing s with
  | nil => exact ⟨[], id, by simp [run], fun g => ⟨rfl, rfl, fun _ => rfl⟩⟩
  | cons a acts ih =>
    obtain ⟨recent, later, hregistered, hlater⟩ := ih (s.step a)
    refine ⟨recent ++ (s.accepted? a).toList.map later, later ∘ Registration.after s a, ?_,
      fun g => ?_⟩
    · refine hregistered.trans ?_
      simp [step]
    · obtain ⟨hmatch, hcontinuation, hfate⟩ := hlater (g.after s a)
      refine ⟨hmatch, hcontinuation, fun hsettled => ?_⟩
      have hafter : g.after s a = g := by
        obtain ⟨matchId, k, fate⟩ := g
        cases fate <;> first | rfl | exact absurd rfl hsettled
      exact (hfate (hafter.symm ▸ hsettled)).trans hafter

/-- A timeout names the match id that it was scheduled for, whatever number of 64 bits that is. -/
lemma brings_scheduleTimeout (convert : List Value → Outcome) (l : Ledger) (matchId : UInt64)
    (target : Endpoint) (time : Int64) :
    (TableAct.handleTimeout
        (CallTable.scheduleTimeout l matchId.toNat target time).1 : TableAct κ).brings convert =
      some (matchId.toNat,
        .error (.timeout ("request " ++ Decimal.ofNat matchId.toNat ++ " timed out"))) := by
  have hid : CallTable.idOfValue? (CallTable.idValue matchId.toNat) = some matchId.toNat := by
    unfold CallTable.idOfValue? CallTable.idValue
    simp [Value.int?]
  have hargument : (CallTable.scheduleTimeout l matchId.toNat target time).1.argAt 0 =
      CallTable.idValue matchId.toNat := rfl
  simp only [TableAct.brings, hargument, hid, Option.map_some]

end Runs

/-- What an act does with the registrations: which it accepts, which it invokes, and what comes of
that for the handles and the callbacks. -/
structure Lawful (s : Correlation κ) (a : TableAct κ) : Prop where
  /-- A registration is accepted exactly for a request whose match id nothing waits for. -/
  accepted : ∀ c k g, a.registers = some (c, k) →
    (s.accepted? a = some g ↔
      g = ⟨c.matchId, k, .waiting⟩ ∧ c.kind = .request ∧
        ∀ g ∈ s.registered, g.fate = .waiting → g.matchId ≠ c.matchId)
  /-- What is invoked is what waits, is not dead, and has the match id that the outcome is for. -/
  invoked : ∀ (g : Registration κ) k o, g.invocation? s a = some (k, o) ↔
    g.fate = .waiting ∧ g.isDead s = false ∧ a.brings s.table.convert = some (g.matchId, o) ∧
      k = g.continuation
  once : (s.invocations a).length ≤ 1
  handles : (s.step a).handles =
    (s.invocations a).foldl (fun handles e => e.1.offer handles e.2) (a.onHandles s.handles)
  due : (s.step a).due = ((s.invocations a).filterMap fun e => e.1.due? e.2) ++ s.due

/-- A table resolves each registration at most once, with the outcome that is its own.  After any
acts on the table and on the handles, its entries are the registrations that still wait, under
different match ids, and the callbacks that were due are those of the invoked registrations.  Every
further act invokes nothing but the live registration that its outcome is for, and a registration
that has a fate keeps it. -/
theorem registrations_resolve (retention : Retention) (convert : List Value → Outcome)
    (acts further : List (TableAct κ)) (a : TableAct κ) :
    let s := (new retention convert).run acts
    s.Faithful ∧ s.table.retention = retention ∧ s.table.convert = convert ∧ s.Lawful a ∧
      (∃ (recent : List (Registration κ)) (later : Registration κ → Registration κ),
        (s.run further).registered = recent ++ s.registered.map later ∧
          ∀ g, (later g).matchId = g.matchId ∧ (later g).continuation = g.continuation ∧
            (g.fate ≠ .waiting → later g = g)) ∧
      ∀ (l : Ledger) (matchId : UInt64) (target : Endpoint) (time : Int64),
        (TableAct.handleTimeout
            (CallTable.scheduleTimeout l matchId.toNat target time).1 : TableAct κ).brings convert =
          some (matchId.toNat,
            .error (.timeout ("request " ++ Decimal.ofNat matchId.toNat ++ " timed out"))) := by
  intro s
  have hs : s.Faithful := faithful_run retention convert acts
  obtain ⟨hretention, hconvert⟩ := settings_run (new retention convert) acts
  obtain ⟨hhandles, hdue⟩ := effects_run (a := a) hs
  refine ⟨hs, hretention, hconvert, ?_, settled_run s further, brings_scheduleTimeout convert⟩
  exact
    { accepted := fun c k g h => accepted?_eq_some_iff hs h
      invoked := fun g k o => invocation?_eq_some_iff
      once := length_invocations_le_one hs
      handles := hhandles
      due := congrArg (· ++ s.due) hdue }

end Correlation

end Switchboard
