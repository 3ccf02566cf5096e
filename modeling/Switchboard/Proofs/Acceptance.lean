import Mathlib
import Switchboard.Proofs.Registrations

/-!
# Outcomes that a handle accepts

A handle may be in many hands: there are strong shares of it, weak ones that do not keep it alive,
and tables that wait for answers on its behalf.  `Sharing` is the state that all of them have in
common, and `Sharing.encounters` what a handle has met with: the outcomes that were offered to it,
by whom ever, with the verdict on each, the times when it was emptied, and its cancellation.

The main theorem `accepted_one_by_one` says what becomes of the offers, in every order of acts.  An
outcome is accepted exactly if the handle was not cancelled before and all outcomes that it had
accepted before were taken out of it.  So a handle from which nothing is taken accepts one outcome
at most; one that is emptied accepts another (`accepted_again`).
-/

namespace Switchboard

/-! ## Acts -/

/-- Something that a handle meets with. -/
inductive Encounter where
  /-- It is offered an outcome, and whoever offers it is told whether it was accepted. -/
  | offered (o : Outcome) (verdict : Bool)
  /-- It is emptied; whoever does so is given what was in it. -/
  | emptied (o : Option Outcome)
  | cancelled

/-- Something that is done with handles, with shares of them or with tables. -/
inductive ShareAct (κ : Type) where
  | create
  | clone (id : HandleId)
  /-- Lets go of a strong share. -/
  | release (id : HandleId)
  | downgrade (id : HandleId)
  | upgrade (id : HandleId)
  | complete (id : HandleId) (values : List Value)
  | fail (id : HandleId) (f : Fault)
  | cancel (id : HandleId)
  | take (id : HandleId)
  | openTable (retention : Retention) (convert : List Value → Outcome)
  /-- An act on a table, by the number of the table. -/
  | onTable (n : ℕ) (a : TableAct κ)

/-- Handles with all that have a share in them. -/
structure Sharing (κ : Type) where
  handles : AsyncStore := {}
  /-- The strong shares in somebody's hands, each by the handle that it is a share of. -/
  strong : List HandleId := []
  /-- The weak shares in somebody's hands. -/
  weak : List HandleId := []
  tables : List (CallTable κ) := []
  /-- All that handles have met with, in order.  Nothing depends on it. -/
  past : List (HandleId × Encounter) := []

namespace TableAct

variable {κ : Type}

/-- Whether those who hold the given strong shares can do this with a table. -/
def isOpenTo (strong : List HandleId) : TableAct κ → Bool
  | .register _ id => strong.contains id
  | .registerCallback .. => true
  | .handle _ => true
  | .handleTimeout _ => true
  | .cancel _ => true
  | .purge => true
  | _ => false

/-- The handle that an act on a table offers an outcome to, with the outcome. -/
def offer? (t : CallTable κ) (handles : AsyncStore) (a : TableAct κ) :
    Option (HandleId × Outcome) :=
  match a.brings t.convert with
  | none => none
  | some (matchId, o) =>
    match (t.purge handles).find? matchId with
    | some (.handle id) => some (id, o)
    | _ => none

/-- What a table says of the answer or the timeout that it was given. -/
def resolution (t : CallTable κ) (handles : AsyncStore) : TableAct κ → Resolution
  | .handle c => (t.handle handles c).resolution
  | .handleTimeout c => (t.handleTimeout handles c).resolution
  | _ => .ignored

end TableAct

/-- Whether a table says that an outcome was accepted. -/
def Resolution.isAcceptance : Resolution → Bool
  | .completed => true
  | .failed => true
  | .unexpected => false
  | .ignored => false

namespace Sharing

variable {κ : Type}

/-- Whether there is a strong share of a handle, be it in a table. -/
def isHeld (s : Sharing κ) (id : HandleId) : Bool :=
  s.strong.contains id || s.tables.any fun t =>
    t.retention = .strong && t.entries.any fun e =>
      match e.2 with
      | .handle kept => kept == id
      | .callback _ => false

/-- Marks the handles of which there is no strong share any more. -/
def settle (s : Sharing κ) : Sharing κ :=
  { s with handles := ⟨s.handles.handles.mapIdx fun id a => { a with held := s.isHeld id }⟩ }

/-- Whether the shares that somebody holds allow an act.  A weak share becomes a strong one only of
a handle that is not dead. -/
def allows (s : Sharing κ) : ShareAct κ → Bool
  | .create => true
  | .clone id => s.strong.contains id
  | .release _ => true
  | .downgrade id => s.strong.contains id
  | .upgrade id => s.weak.contains id && !(s.handles.get id).isDead
  | .complete id _ => s.strong.contains id
  | .fail id _ => s.strong.contains id
  | .cancel id => s.strong.contains id
  | .take id => s.strong.contains id
  | .openTable .. => true
  | .onTable _ a => a.isOpenTo s.strong

/-- The handles after an act. -/
def handlesAfter (s : Sharing κ) : ShareAct κ → AsyncStore
  | .create => s.handles.create.2
  | .complete id values => (s.handles.resolve id (.ok values)).2
  | .fail id f => (s.handles.resolve id (.error f)).2
  | .cancel id => s.handles.cancel id
  | .take id => (s.handles.take id).2
  | .onTable n a => s.tables[n]?.elim s.handles fun t => (a.run t s.handles).2.1
  | _ => s.handles

/-- The strong shares after an act. -/
def strongAfter (s : Sharing κ) : ShareAct κ → List HandleId
  | .create => s.handles.create.1 :: s.strong
  | .clone id => id :: s.strong
  | .release id => s.strong.erase id
  | .upgrade id => id :: s.strong
  | _ => s.strong

/-- The weak shares after an act. -/
def weakAfter (s : Sharing κ) : ShareAct κ → List HandleId
  | .downgrade id => id :: s.weak
  | _ => s.weak

/-- The tables after an act. -/
def tablesAfter (s : Sharing κ) : ShareAct κ → List (CallTable κ)
  | .openTable retention convert => s.tables ++ [⟨retention, convert, []⟩]
  | .onTable n a => s.tables.modify n fun t => (a.run t s.handles).1
  | _ => s.tables

/-- What an act has a handle meet with.  A handle that a table offers an outcome to meets with the
verdict that the table gives. -/
def meets (s : Sharing κ) : ShareAct κ → Option (HandleId × Encounter)
  | .complete id values => some (id, .offered (.ok values) (s.handles.resolve id (.ok values)).1)
  | .fail id f => some (id, .offered (.error f) (s.handles.resolve id (.error f)).1)
  | .cancel id => some (id, .cancelled)
  | .take id => some (id, .emptied (s.handles.take id).1)
  | .onTable n a =>
    s.tables[n]?.bind fun t => (a.offer? t s.handles).map fun (id, o) =>
      (id, .offered o (a.resolution t s.handles).isAcceptance)
  | _ => none

/-- The state after an act; nothing comes of an act that the shares do not allow. -/
def step (s : Sharing κ) (a : ShareAct κ) : Sharing κ :=
  if s.allows a then
    settle
      { handles := s.handlesAfter a
        strong := s.strongAfter a
        weak := s.weakAfter a
        tables := s.tablesAfter a
        past := s.past ++ (s.meets a).toList }
  else s

/-- What acts come to, one after the other. -/
def run (s : Sharing κ) (acts : List (ShareAct κ)) : Sharing κ := acts.foldl step s

/-- What a handle has met with. -/
def encounters (s : Sharing κ) (id : HandleId) : List Encounter :=
  s.past.filterMap fun e => if e.1 = id then some e.2 else none

end Sharing

/-! ## What a handle makes of its encounters -/

namespace Encounter

/-- The outcome that is accepted. -/
def accepted? : Encounter → Option Outcome
  | .offered o true => some o
  | _ => none

/-- The outcome that is taken out. -/
def taken? : Encounter → Option Outcome
  | .emptied o => o
  | _ => none

/-- The outcomes that were accepted, in order. -/
def accepted (es : List Encounter) : List Outcome := es.filterMap accepted?

/-- The outcomes that were taken out, in order. -/
def taken (es : List Encounter) : List Outcome := es.filterMap taken?

/-- Whether what is told about an encounter is what the handle says. -/
def IsTrue (a : Async) : Encounter → Prop
  | .offered _ verdict => verdict = a.accepts
  | .emptied o => o = a.outcome
  | .cancelled => True

/-- The handle after an encounter. -/
def leaves (a : Async) : Encounter → Async
  | .offered o _ => a.resolve o
  | .emptied _ => a.take
  | .cancelled => a.cancel

/-- What is known of a handle by what it has met with. -/
structure Explains (es : List Encounter) (a : Async) : Prop where
  /-- What was accepted was taken out in the same order, up to what is in the handle. -/
  accepted : accepted es = taken es ++ a.outcome.toList
  cancelled : a.cancelled = true ↔ .cancelled ∈ es
  /-- An outcome was accepted exactly if there was no cancellation before it and all that was
  accepted before was taken out. -/
  verdicts : ∀ before o verdict after, es = before ++ .offered o verdict :: after →
    (verdict = true ↔ .cancelled ∉ before ∧ Encounter.accepted before = taken before)

section Explains

variable {es : List Encounter} {a b : Async} {e : Encounter}

/-- A handle that has not met with anything. -/
lemma Explains.fresh : Explains [] .fresh where
  accepted := rfl
  cancelled := by simp [Async.fresh]
  verdicts := fun before o verdict after h => by simp at h

/-- Who holds a handle does not matter for what it has met with. -/
lemma Explains.congr (h : Explains es a) (houtcome : b.outcome = a.outcome)
    (hcancelled : b.cancelled = a.cancelled) : Explains es b where
  accepted := houtcome ▸ h.accepted
  cancelled := hcancelled ▸ h.cancelled
  verdicts := h.verdicts

/-- A handle accepts an outcome exactly if it was not cancelled and is empty again. -/
lemma Explains.accepts_iff (h : Explains es a) :
    a.accepts = true ↔ .cancelled ∉ es ∧ Encounter.accepted es = taken es := by
  have hempty : a.outcome.isNone = true ↔ Encounter.accepted es = taken es := by
    rw [h.accepted]
    cases a.outcome <;> simp
  rw [Async.accepts, Bool.and_eq_true, Bool.not_eq_true', ← Bool.not_eq_true, h.cancelled, hempty]

/-- Every encounter of which the truth is told is explained. -/
lemma Explains.concat (h : Explains es a) (he : e.IsTrue a) :
    Explains (es ++ [e]) (e.leaves a) where
  accepted := by
    have hsplit (f : Encounter → Option Outcome) :
        (es ++ [e]).filterMap f = es.filterMap f ++ (f e).toList := by
      cases hf : f e <;> simp [hf]
    have haccepted := h.accepted
    unfold Encounter.accepted taken at haccepted ⊢
    rw [hsplit, hsplit, haccepted]
    cases e with
    | offered o verdict =>
      obtain rfl : verdict = a.accepts := he
      unfold leaves Async.resolve
      cases haccepts : a.accepts with
      | false => simp [accepted?, taken?]
      | true =>
        have hempty : a.outcome = none := by
          simpa using (Bool.and_eq_true_iff.mp haccepts).2
        simp [accepted?, taken?, hempty]
    | emptied o =>
      obtain rfl : o = a.outcome := he
      simp [accepted?, taken?, leaves, Async.take]
    | cancelled => simp [accepted?, taken?, leaves, Async.cancel]
  cancelled := by
    rw [List.mem_append, List.mem_singleton, ← h.cancelled]
    cases e with
    | offered o verdict =>
      unfold leaves Async.resolve
      split_ifs <;> simp
    | emptied o => simp [leaves, Async.take]
    | cancelled => simp [leaves, Async.cancel]
  verdicts := by
    intro before o verdict after heq
    rcases List.eq_nil_or_concat after with rfl | ⟨rest, last, rfl⟩
    · -- The offer is the new encounter, and all others came before it.
      obtain ⟨rfl, hlast⟩ := List.append_inj' heq rfl
      obtain rfl : e = .offered o verdict := List.singleton_inj.mp hlast
      exact (Bool.eq_iff_iff.mp he).trans h.accepts_iff
    · rw [List.concat_eq_append, ← List.cons_append, ← List.append_assoc] at heq
      exact h.verdicts before o verdict rest (List.append_inj' heq rfl).1

end Explains

end Encounter

/-! ## What an act on a table does to the handles -/

namespace TableAct

variable {κ : Type} {t : CallTable κ} {handles : AsyncStore} {a : TableAct κ} {id : HandleId}
  {o : Outcome}

/-- The match id of an offer, for which the handle waits. -/
lemma offer?_eq_some (h : a.offer? t handles = some (id, o)) :
    ∃ matchId, a.brings t.convert = some (matchId, o) ∧
      (t.purge handles).find? matchId = some (.handle id) := by
  unfold offer? at h
  split at h
  · contradiction
  · next matchId brought hbrings =>
    split at h
    · next kept hfind =>
      cases h
      exact ⟨matchId, hbrings, hfind⟩
    · contradiction

/-- The handle of an offer is one of those that the table has entries for. -/
lemma exists_entry_of_offer? (h : a.offer? t handles = some (id, o)) :
    ∃ matchId, (matchId, .handle id) ∈ t.entries := by
  obtain ⟨matchId, -, hfind⟩ := offer?_eq_some h
  exact ⟨matchId, List.mem_of_mem_filter (CallTable.mem_of_find? hfind)⟩

/-- What is done with a table does to the handles no more than its offer. -/
lemma handles_run (hopen : ∀ x, a.onHandles x = x) :
    (a.run t handles).2.1 =
      (a.offer? t handles).elim handles fun (id, o) => (handles.resolve id o).2 := by
  unfold offer?
  cases hbrings : a.brings t.convert with
  | none =>
    cases hsweeps : a.sweeps with
    | false =>
      rw [Correlation.effects_run_of_not_sweeps hsweeps]
      exact hopen handles
    | true => rw [Correlation.run_of_sweeps hsweeps hbrings]; rfl
  | some b =>
    rw [Correlation.run_of_brings hbrings]
    unfold Correlation.deliver
    cases hfind : (t.purge handles).find? b.1 with
    | none => simp [hfind]
    | some k => cases k <;> simp [hfind, Continuation.offer]

/-- Whoever can do something with a table does nothing with the handles beside it. -/
lemma onHandles_of_isOpenTo {strong : List HandleId} (h : a.isOpenTo strong = true) :
    ∀ x, a.onHandles x = x := by
  cases a <;> first | exact fun _ => rfl | contradiction

/-- What a table says of an outcome that it has resolved an entry with. -/
lemma isAcceptance_resolve (t : CallTable κ) (handles : AsyncStore) (matchId : ℕ) (id : HandleId)
    (o : Outcome) :
    (t.resolve handles matchId (.handle id) o).resolution.isAcceptance =
      (handles.get id).accepts := by
  unfold CallTable.resolve AsyncStore.resolve
  cases haccepts : (handles.get id).accepts <;> cases o <;> simp [Resolution.isAcceptance, haccepts]

/-- A table tells the truth about its offers. -/
lemma isAcceptance_resolution (h : a.offer? t handles = some (id, o)) :
    (a.resolution t handles).isAcceptance = (handles.get id).accepts := by
  obtain ⟨matchId, hbrings, hfind⟩ := offer?_eq_some h
  cases a with
  | handle c =>
    have hresponse : c.isResponse = true ∧ c.matchId = matchId := by
      cases hkind : c.kind <;> simp_all [brings, Call.isResponse]
    obtain ⟨hresponse, rfl⟩ := hresponse
    unfold resolution CallTable.handle
    simp only [hresponse, hfind, Bool.not_true, Bool.false_eq_true, ↓reduceIte]
    exact isAcceptance_resolve ..
  | handleTimeout c =>
    obtain ⟨named, hid, heq⟩ := Option.map_eq_some_iff.mp hbrings
    obtain ⟨rfl, rfl⟩ := Prod.mk.inj heq
    unfold resolution CallTable.handleTimeout
    simp only [hid, hfind]
    exact isAcceptance_resolve ..
  | _ => contradiction

/-- The entries after an act are those before it and what it registers. -/
lemma mem_entries_run {e : ℕ × Continuation κ} (h : e ∈ (a.run t handles).1.entries) :
    e ∈ t.entries ∨ ∃ c, a.registers = some (c, e.2) := by
  have hentries := Correlation.entries_run (s := ⟨t, handles, [], []⟩) (a := a)
  rw [hentries, List.mem_append] at h
  refine h.symm.imp List.mem_of_mem_filter fun h => ?_
  obtain ⟨g, hg, hge⟩ := List.mem_filterMap.mp h
  obtain ⟨⟨c, k⟩, hregisters, hg⟩ := Option.bind_eq_some_iff.mp (Option.mem_toList.mp hg)
  obtain ⟨_, -, rfl⟩ := Option.map_eq_some_iff.mp hg
  obtain rfl : (c.matchId, k) = e := Option.some.inj hge
  exact ⟨c, hregisters⟩

end TableAct

/-! ## Runs -/

namespace Sharing

variable {κ : Type} {s : Sharing κ} {id other : HandleId} {a : ShareAct κ} {e : Encounter}

/-- Whether all shares are of handles that were given out. -/
structure Known (s : Sharing κ) : Prop where
  strong : ∀ id ∈ s.strong, id < s.handles.handles.length
  weak : ∀ id ∈ s.weak, id < s.handles.handles.length
  entries : ∀ t ∈ s.tables, ∀ matchId id, (matchId, .handle id) ∈ t.entries →
    id < s.handles.handles.length

/-- The state of a handle once the handles without strong shares are marked. -/
lemma get_settle (s : Sharing κ) (id : HandleId) :
    (s.settle.handles.get id).outcome = (s.handles.get id).outcome ∧
      (s.settle.handles.get id).cancelled = (s.handles.get id).cancelled := by
  unfold settle AsyncStore.get
  cases h : s.handles.handles[id]? <;> simp [h]

/-- Marking handles gives none out. -/
@[simp]
lemma length_settle (s : Sharing κ) : s.settle.handles.handles.length = s.handles.handles.length :=
  List.length_mapIdx

/-- What is done with a handle gives none out. -/
@[simp]
lemma length_update (handles : AsyncStore) (id : HandleId) (f : Async → Async) :
    (handles.update id f).handles.length = handles.handles.length := List.length_modify ..

/-- A table gives no handles out. -/
lemma length_run {t : CallTable κ} {handles : AsyncStore} {b : TableAct κ}
    (h : ∀ x, b.onHandles x = x) :
    (b.run t handles).2.1.handles.length = handles.handles.length := by
  rw [TableAct.handles_run h]
  cases b.offer? t handles with
  | none => rfl
  | some e => exact length_update ..

/-- A handle that was just given out is fresh, as it counted before. -/
lemma get_create (handles : AsyncStore) (id : HandleId) :
    handles.create.2.get id = handles.get id := by
  unfold AsyncStore.create AsyncStore.get
  rcases lt_trichotomy id handles.handles.length with h | rfl | h
  · simp [List.getElem?_append_left h]
  · simp
  · simp [List.getElem?_eq_none, h.le, Nat.succ_le_of_lt h]

/-- What an act has a handle meet with is true, and all that the act does to the handles. -/
lemma get_handlesAfter_of_meets (h : s.Known) (hallows : s.allows a = true)
    (hmeets : s.meets a = some (id, e)) :
    e.IsTrue (s.handles.get id) ∧ (s.handlesAfter a).get id = e.leaves (s.handles.get id) ∧
      ∀ other ≠ id, (s.handlesAfter a).get other = s.handles.get other := by
  cases a with
  | complete x values =>
    cases hmeets
    have hid := h.strong id (List.contains_iff_mem.mp hallows)
    exact ⟨rfl, AsyncStore.get_update_self hid, fun _ => AsyncStore.get_update_of_ne⟩
  | fail x f =>
    cases hmeets
    have hid := h.strong id (List.contains_iff_mem.mp hallows)
    exact ⟨rfl, AsyncStore.get_update_self hid, fun _ => AsyncStore.get_update_of_ne⟩
  | cancel x =>
    cases hmeets
    have hid := h.strong id (List.contains_iff_mem.mp hallows)
    exact ⟨trivial, AsyncStore.get_update_self hid, fun _ => AsyncStore.get_update_of_ne⟩
  | take x =>
    cases hmeets
    have hid := h.strong id (List.contains_iff_mem.mp hallows)
    exact ⟨rfl, AsyncStore.get_update_self hid, fun _ => AsyncStore.get_update_of_ne⟩
  | onTable n b =>
    obtain ⟨t, ht, hmet⟩ := Option.bind_eq_some_iff.mp hmeets
    obtain ⟨⟨x, o⟩, hoffer, hx⟩ := Option.map_eq_some_iff.mp hmet
    cases hx
    obtain ⟨matchId, hentry⟩ := TableAct.exists_entry_of_offer? hoffer
    have hid := h.entries t (List.mem_of_getElem? ht) matchId id hentry
    have hhandles : s.handlesAfter (.onTable n b) = (s.handles.resolve id o).2 := by
      simp only [handlesAfter, ht, Option.elim_some,
        TableAct.handles_run (TableAct.onHandles_of_isOpenTo hallows), hoffer]
    rw [hhandles]
    exact ⟨TableAct.isAcceptance_resolution hoffer, AsyncStore.get_update_self hid,
      fun _ => AsyncStore.get_update_of_ne⟩
  | _ => contradiction

/-- An act that no handle meets with leaves them all. -/
lemma get_handlesAfter_of_not_meets (hallows : s.allows a = true) (hmeets : s.meets a = none)
    (id : HandleId) : (s.handlesAfter a).get id = s.handles.get id := by
  cases a with
  | create => exact get_create s.handles id
  | onTable n b =>
    cases ht : s.tables[n]? with
    | none => simp [handlesAfter, ht]
    | some t =>
      have hoffer : b.offer? t s.handles = none := by
        simpa [meets, ht] using hmeets
      simp [handlesAfter, ht, TableAct.handles_run (TableAct.onHandles_of_isOpenTo hallows), hoffer]
  | _ => first | rfl | contradiction

/-- No act takes back a handle that was given out. -/
lemma length_handlesAfter (hallows : s.allows a = true) :
    s.handles.handles.length ≤ (s.handlesAfter a).handles.length := by
  cases a with
  | create => simp [handlesAfter, AsyncStore.create]
  | onTable n b =>
    cases ht : s.tables[n]? with
    | none => simp [handlesAfter, ht]
    | some t =>
      simp [handlesAfter, ht, length_run (TableAct.onHandles_of_isOpenTo hallows)]
  | complete id values => exact (length_update ..).ge
  | fail id f => exact (length_update ..).ge
  | cancel id => exact (length_update ..).ge
  | take id => exact (length_update ..).ge
  | _ => exact le_rfl

/-- The strong shares after an act are of handles that were given out. -/
lemma Known.strongAfter (h : s.Known) (hallows : s.allows a = true) :
    ∀ id ∈ s.strongAfter a, id < (s.handlesAfter a).handles.length := by
  have hold : ∀ id ∈ s.strong, id < (s.handlesAfter a).handles.length := fun id hid =>
    (h.strong id hid).trans_le (length_handlesAfter hallows)
  cases a with
  | create => exact List.forall_mem_cons.mpr ⟨by simp [handlesAfter, AsyncStore.create], hold⟩
  | clone id => exact List.forall_mem_cons.mpr ⟨hold id (List.contains_iff_mem.mp hallows), hold⟩
  | release id => exact fun x hx => hold x (List.mem_of_mem_erase hx)
  | upgrade id =>
    have hid := h.weak id (List.contains_iff_mem.mp (Bool.and_eq_true_iff.mp hallows).1)
    exact List.forall_mem_cons.mpr ⟨hid, hold⟩
  | _ => exact hold

/-- The weak shares after an act are of handles that were given out. -/
lemma Known.weakAfter (h : s.Known) (hallows : s.allows a = true) :
    ∀ id ∈ s.weakAfter a, id < (s.handlesAfter a).handles.length := by
  have hold : ∀ id ∈ s.weak, id < (s.handlesAfter a).handles.length := fun id hid =>
    (h.weak id hid).trans_le (length_handlesAfter hallows)
  cases a with
  | downgrade id =>
    exact List.forall_mem_cons.mpr ⟨h.strong id (List.contains_iff_mem.mp hallows), hold⟩
  | _ => exact hold

/-- The entries after an act are of handles that were given out: only a handle of which there is a
strong share can be entered. -/
lemma Known.tablesAfter (h : s.Known) (hallows : s.allows a = true) :
    ∀ t ∈ s.tablesAfter a, ∀ matchId id, (matchId, .handle id) ∈ t.entries →
      id < (s.handlesAfter a).handles.length := by
  have hold : ∀ t ∈ s.tables, ∀ matchId id, (matchId, .handle id) ∈ t.entries →
      id < (s.handlesAfter a).handles.length := fun t ht matchId id hid =>
    (h.entries t ht matchId id hid).trans_le (length_handlesAfter hallows)
  cases a with
  | openTable retention convert =>
    intro t ht matchId id hid
    rcases List.mem_append.mp ht with ht | ht
    · exact hold t ht matchId id hid
    · obtain rfl := List.mem_singleton.mp ht
      contradiction
  | onTable n b =>
    intro t ht matchId id hid
    obtain ⟨m, hm⟩ := List.mem_iff_getElem?.mp ht
    rw [Sharing.tablesAfter, List.getElem?_modify] at hm
    obtain ⟨u, hu, rfl⟩ := Option.map_eq_some_iff.mp hm
    have hmem := List.mem_of_getElem? hu
    split_ifs at hid with hn
    · rcases TableAct.mem_entries_run hid with hid | ⟨c, hregisters⟩
      · exact hold u hmem matchId id hid
      · cases b with
        | register _ _ =>
          cases hregisters
          exact (h.strong id (List.contains_iff_mem.mp hallows)).trans_le
            (length_handlesAfter hallows)
        | registerCallback _ _ => cases hregisters
        | _ => contradiction
    · exact hold u hmem matchId id hid
  | _ => exact hold

/-- Shares stay shares of handles that were given out. -/
lemma Known.step (h : s.Known) (a : ShareAct κ) : (s.step a).Known := by
  unfold Sharing.step
  split_ifs with hallows
  · exact ⟨fun id hid => (length_settle _).symm ▸ h.strongAfter hallows id hid,
      fun id hid => (length_settle _).symm ▸ h.weakAfter hallows id hid,
      fun t ht matchId id hid => (length_settle _).symm ▸ h.tablesAfter hallows t ht matchId id hid⟩
  · exact h

/-- What a handle has met with after an act. -/
lemma encounters_concat (s : Sharing κ) (x : Option (HandleId × Encounter)) (id : HandleId) :
    (s.past ++ x.toList).filterMap (fun e => if e.1 = id then some e.2 else none) =
      s.encounters id ++ (x.bind fun e => if e.1 = id then some e.2 else none).toList := by
  rw [List.filterMap_append]
  cases x with
  | none => rfl
  | some e => by_cases he : e.1 = id <;> simp [he, encounters]

/-- An act leaves every handle explained by what it has met with. -/
lemma explains_step (h : s.Known) (hid : Encounter.Explains (s.encounters id) (s.handles.get id))
    (a : ShareAct κ) :
    Encounter.Explains ((s.step a).encounters id) ((s.step a).handles.get id) := by
  unfold step
  split_ifs with hallows
  · refine Encounter.Explains.congr (a := (s.handlesAfter a).get id) ?_ (get_settle _ id).1
      (get_settle _ id).2
    unfold encounters settle
    rw [encounters_concat]
    cases hmeets : s.meets a with
    | none =>
      rw [get_handlesAfter_of_not_meets hallows hmeets]
      simpa using hid
    | some x =>
      obtain ⟨met, e⟩ := x
      obtain ⟨htrue, hself, hothers⟩ := get_handlesAfter_of_meets h hallows hmeets
      by_cases hmet : met = id
      · subst hmet
        rw [hself]
        simpa using hid.concat htrue
      · rw [hothers id (Ne.symm hmet)]
        simpa [hmet] using hid
  · exact hid

/-- Whatever is done, every handle is explained by what it has met with. -/
lemma explains_run (acts : List (ShareAct κ)) (id : HandleId) :
    Encounter.Explains ((run {} acts).encounters id)
      ((run ({} : Sharing κ) acts).handles.get id) := by
  suffices ∀ s : Sharing κ, s.Known → Encounter.Explains (s.encounters id) (s.handles.get id) →
      Encounter.Explains ((s.run acts).encounters id) ((s.run acts).handles.get id) from
    this {} ⟨by simp, by simp, by simp⟩ .fresh
  induction acts with
  | nil => exact fun _ _ hid => hid
  | cons a acts ih => exact fun s h hid => ih (s.step a) (h.step a) (explains_step h hid a)

/-- A handle accepts outcomes one by one.  Whatever is done with the handle, with its shares and
with the tables that it is entered in, and in whatever order, what it has accepted was taken out of
it in the same order, up to the one outcome that may still be in it; and an offer is accepted
exactly if the handle was not cancelled before and nothing that it had accepted before was still in
it.  Hence a handle accepts at most one outcome more than are taken out of it. -/
theorem accepted_one_by_one (acts : List (ShareAct κ)) (id : HandleId) :
    let s := run {} acts
    let es := s.encounters id
    Encounter.accepted es = Encounter.taken es ++ (s.handles.get id).outcome.toList ∧
      (Encounter.accepted es).length ≤ (Encounter.taken es).length + 1 ∧
      ((s.handles.get id).cancelled = true ↔ .cancelled ∈ es) ∧
      ∀ before o verdict after, es = before ++ .offered o verdict :: after →
        (verdict = true ↔
          .cancelled ∉ before ∧ Encounter.accepted before = Encounter.taken before) := by
  intro s es
  have h : Encounter.Explains es (s.handles.get id) := explains_run acts id
  refine ⟨h.accepted, ?_, h.cancelled, h.verdicts⟩
  calc (Encounter.accepted es).length
      = (Encounter.taken es).length + (s.handles.get id).outcome.toList.length := by
        rw [h.accepted, List.length_append]
    _ ≤ (Encounter.taken es).length + 1 := by
        cases (s.handles.get id).outcome <;> simp

/-- A handle that is emptied accepts a second outcome, though nothing but its one owner has a share
in it. -/
theorem accepted_again :
    ¬∀ (acts : List (ShareAct Unit)) (id : HandleId),
      (Encounter.accepted ((run {} acts).encounters id)).length ≤ 1 := by
  intro h
  have htwo : (Encounter.accepted
      ((run ({} : Sharing Unit)
        [.create, .complete 0 [.bool true], .take 0, .complete 0 [.bool false]]).encounters
          0)).length = 2 := rfl
  exact absurd (h _ 0) (by rw [htwo]; decide)

end Sharing

end Switchboard
