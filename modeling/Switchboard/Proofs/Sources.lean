import Mathlib
import Switchboard.Proofs.Refusals
import Switchboard.Proofs.Wiring

/-!
# Behaviors that are compiled from sources

A unit remembers the source from which its behavior was compiled, and an installation of the same
source is passed over.  The main theorem `source_installed` says that this is sound: what is in
place after an accepted installation of a source is what the compiler makes of that source, and the
installation is passed over, with nothing compiled and nothing changed, exactly if the last behavior
that the unit was given came from the same source.

A unit is given behaviors in two ways, and either can fail, for want of a compiler, in compiling, or
in the declaration.  `Root.Attempts` is the history of a unit that counts all of these attempts, and
`Root.lastSource` what the last successful one says of the source.  That the unit remembers just
that is shown along the history (`Attempts.remembers`).
-/

namespace Switchboard

/-- Whether a compiler makes of a source a behavior that declares these members. -/
def Compiler.Declares (compiler : Compiler) (typeName source : String) (ms : Members) : Prop :=
  ∃ b i, compiler.compile typeName source = .ok b ∧ Iteration.ofBehavior b = .ok i ∧ i.members = ms

namespace Root

variable {r s : Root} {k : Handle} {n m : Node} {p : Path} {b : Behavior} {i : Iteration}
  {source : String}

/-! ## Installations -/

/-- A unit that is given an iteration keeps its type and has the members and the source of the
iteration. -/
lemma source_putIteration (hn : r.units.get? k = some n) (i : Iteration) :
    ∃ m, (r.putIteration k i).units.get? k = some m ∧ m.typeName = n.typeName ∧
      m.iteration.members = i.members ∧ m.iteration.source = i.source := by
  have hm := get?_putIteration hn i k
  rw [if_pos rfl] at hm
  have hfollows := Node.follows_install (r.setting n.address)
    { i with number := r.installed.length } r.clock.isActive n r.turn
  exact ⟨_, hm, hfollows.typeName, hfollows.members, hfollows.source⟩

/-- An installation at a unit fails, or puts the iteration of the behavior in place. -/
lemma install_cases (hp : r.handle? p = some k) (b : Behavior) :
    (∃ e, r.install p b = (.error e, r)) ∨
      ∃ i, Iteration.ofBehavior b = .ok i ∧ r.install p b = (.ok (), r.putIteration k i) := by
  unfold install
  match hcheck : r.checkInstall p b with
  | .error e => exact .inl ⟨e, rfl⟩
  | .ok (l, i) =>
    obtain ⟨hl, hi⟩ := checkInstall_eq_ok hcheck
    cases hp.symm.trans hl
    exact .inr ⟨i, hi, rfl⟩

/-- The source that a unit remembers is passed over, whatever the compiler. -/
lemma installSource_same (hp : r.handle? p = some k) (hn : r.units.get? k = some n)
    (h : n.iteration.source = some source) (compiler : Option Compiler) :
    { r with compiler := compiler }.installSource p source =
      (.ok false, { r with compiler := compiler }) := by
  have hnode : { r with compiler := compiler }.lookupNode p = .ok (k, n) :=
    lookupNode_eq_ok.mpr ⟨hp, hn⟩
  have hcheck : { r with compiler := compiler }.checkSource p source = .ok (k, none) := by
    unfold checkSource
    rw [hnode]
    simp only [bind, Except.bind, pure, Except.pure, if_pos h]
  unfold installSource
  rw [hcheck]

/-- The installation of another source than the one that a unit remembers fails, or puts in place
what the compiler makes of the source. -/
lemma installSource_cases (hp : r.handle? p = some k) (hn : r.units.get? k = some n)
    (h : n.iteration.source ≠ some source) :
    (∃ e, r.installSource p source = (.error e, r)) ∨
      ∃ compiler b i, r.compiler = some compiler ∧ compiler.compile n.typeName source = .ok b ∧
        Iteration.ofBehavior b = .ok i ∧
        r.installSource p source =
          (.ok true, r.putIteration k { i with source := some source }) := by
  have hnode : r.lookupNode p = .ok (k, n) := lookupNode_eq_ok.mpr ⟨hp, hn⟩
  unfold installSource checkSource
  rw [hnode]
  simp only [bind, Except.bind, pure, Except.pure, if_neg h]
  cases hcompiler : r.compiler with
  | none => exact .inl ⟨_, rfl⟩
  | some compiler =>
    cases hcompile : compiler.compile n.typeName source with
    | error e => exact .inl ⟨.install (.compile e), by simp only [hcompile, Except.mapError]⟩
    | ok b =>
      cases hi : Iteration.ofBehavior b with
      | error e => exact .inl ⟨.install e, by simp only [hcompile, hi, Except.mapError]⟩
      | ok i =>
        refine .inr ⟨compiler, b, i, rfl, hcompile, hi, ?_⟩
        simp only [hcompile, hi, Except.mapError]

/-! ## Histories -/

/-- An installation of a source is passed over exactly if the unit remembers this source. -/
lemma installSource_passed_iff (hp : r.handle? p = some k) (hn : r.units.get? k = some n)
    (source : String) :
    (r.installSource p source).1 = .ok false ↔ n.iteration.source = some source := by
  constructor
  · intro hpassed
    by_contra hsource
    rcases installSource_cases hp hn hsource with ⟨e, hfailed⟩ | ⟨c, b, i, -, -, -, hdone⟩
    · rw [hfailed] at hpassed
      contradiction
    · rw [hdone] at hpassed
      nomatch hpassed
  · intro hsource
    have hsame : r.installSource p source = (.ok false, r) :=
      installSource_same hp hn hsource r.compiler
    exact congrArg Prod.fst hsame

/-- A unit is still there when a source was to be installed at it. -/
lemma exists_installSource (hp : r.handle? p = some k) (hn : r.units.get? k = some n)
    (source : String) : ∃ m, (r.installSource p source).2.units.get? k = some m := by
  by_cases hsource : n.iteration.source = some source
  · have hsame : r.installSource p source = (.ok false, r) :=
      installSource_same hp hn hsource r.compiler
    rw [hsame]
    exact ⟨n, hn⟩
  · rcases installSource_cases hp hn hsource with ⟨e, hfailed⟩ | ⟨c, b, i, -, -, -, hdone⟩
    · rw [hfailed]
      exact ⟨n, hn⟩
    · rw [hdone]
      obtain ⟨m, hm, -⟩ := source_putIteration hn { i with source := some source }
      exact ⟨m, hm⟩

end Root

/-- An attempt to give a unit a behavior, with what came of it. -/
inductive Attempt where
  | behavior (b : Behavior) (result : Except RuntimeError Unit)
  /-- The behavior is compiled from a source; the flag tells whether it was put in place. -/
  | compile (source : String) (result : Except RuntimeError Bool)

/-- The source of the behavior that an attempt has put in place, which may be none. -/
def Attempt.placed? : Attempt → Option (Option String)
  | .behavior _ (.ok ()) => some none
  | .compile source (.ok true) => some (some source)
  | _ => none

namespace Root

/-- The source of the behavior that was put in place last, given the attempts, the last one
first. -/
def lastSource (attempts : List Attempt) : Option String :=
  (attempts.findSome? Attempt.placed?).join

/-- A run of a root, with the attempts to give a unit a behavior, the last one first.  Whenever a
source is compiled for the unit, the compiler is the same. -/
inductive Attempts (compiler : Compiler) (k : Handle) : List Attempt → Root → Prop
  | new {config : Config} {catalog : Catalog} {r : Root} (h : Root.new config catalog = .ok r) :
      Attempts compiler k [] r
  /-- The unit is not there yet, or not any more. -/
  | absent {as : List Attempt} {r s : Root} (h : Attempts compiler k as r) (hs : Stride r s)
      (hk : r.units.get? k = none) : Attempts compiler k [] s
  /-- Something else is done than to put a behavior in place at the unit. -/
  | other {as : List Attempt} {r s : Root} (h : Attempts compiler k as r) (hs : Stride r s)
      (hk : (r.units.get? k).isSome = true) (hother : ∀ i, s ≠ r.putIteration k i) :
      Attempts compiler k as s
  | install {as : List Attempt} {r : Root} (h : Attempts compiler k as r) {p : Path}
      (hp : r.handle? p = some k) (b : Behavior) :
      Attempts compiler k (.behavior b (r.install p b).1 :: as) (r.install p b).2
  | installSource {as : List Attempt} {r : Root} (h : Attempts compiler k as r) {p : Path}
      (hp : r.handle? p = some k) (hcompiler : ∀ c, r.compiler = some c → c = compiler)
      (source : String) :
      Attempts compiler k (.compile source (r.installSource p source).1 :: as)
        (r.installSource p source).2

variable {r s : Root} {k : Handle} {n m : Node} {p : Path} {compiler : Compiler}
  {as : List Attempt} {source : String}

/-- Whether a unit remembers a source, and has the members that the compiler makes of it. -/
structure Remembers (compiler : Compiler) (remembered : Option String) (n : Node) : Prop where
  source : n.iteration.source = remembered
  declared : ∀ text, remembered = some text →
    compiler.Declares n.typeName text n.iteration.members

/-- What follows a unit remembers what the unit remembers. -/
lemma Remembers.follows {remembered : Option String} (h : Remembers compiler remembered n)
    (hfollows : n.Follows m) : Remembers compiler remembered m where
  source := hfollows.source.trans h.source
  declared text htext := by
    rw [hfollows.typeName, hfollows.members]
    exact h.declared text htext

/-- A unit remembers the source of the behavior that was put in place last, and has what the
compiler makes of that source. -/
lemma Attempts.remembers (h : Attempts compiler k as r) :
    r.IsTree ∧ ∀ n, r.units.get? k = some n → Remembers compiler (lastSource as) n := by
  induction h with
  | new h =>
    refine ⟨(Reachable.new h).isTree, fun n hn => ?_⟩
    have hempty : ({} : Arena Node).Valid := ⟨List.nodup_nil, by simp⟩
    obtain ⟨address, -, rfl⟩ := new_eq_ok h
    simp only [Arena.get?_insert_snd hempty] at hn
    split at hn
    · cases hn
      exact ⟨rfl, fun text htext => by contradiction⟩
    · contradiction
  | absent h hs hk ih =>
    obtain ⟨hr, -⟩ := ih
    refine ⟨hr.stride hs, fun m hm => ?_⟩
    cases hs.becomes hr hm with
    | follows hn =>
      rw [hk] at hn
      contradiction
    | installed hn =>
      rw [hk] at hn
      contradiction
    | added _ _ hsource => exact ⟨hsource, fun text htext => by contradiction⟩
  | other h hs hk hother ih =>
    obtain ⟨hr, hremembers⟩ := ih
    refine ⟨hr.stride hs, fun m hm => ?_⟩
    cases hs.becomes hr hm with
    | follows hn hfollows => exact (hremembers _ hn).follows hfollows
    | installed _ hi => exact absurd hi (hother _)
    | added hgrafted =>
      rw [hgrafted.new] at hk
      contradiction
  | @install as r h p hp b ih =>
    obtain ⟨hr, hremembers⟩ := ih
    obtain ⟨n, hn, -⟩ := exists_of_handle hr.skeleton.index hp
    rcases install_cases hp b with ⟨e, hfailed⟩ | ⟨i, hi, hdone⟩
    · rw [hfailed]
      exact ⟨hr, hremembers⟩
    · rw [hdone]
      refine ⟨hr.keeps (keeps_putIteration r k i), fun m hm => ?_⟩
      obtain ⟨m', hm', -, -, hsource⟩ := source_putIteration hn i
      rw [hm] at hm'
      cases hm'
      exact ⟨hsource.trans (Iteration.source_ofBehavior hi), fun text htext => by contradiction⟩
  | @installSource as r h p hp hcompiler source ih =>
    obtain ⟨hr, hremembers⟩ := ih
    obtain ⟨n, hn, -⟩ := exists_of_handle hr.skeleton.index hp
    by_cases hsource : n.iteration.source = some source
    · have hpassed : r.installSource p source = (.ok false, r) :=
        installSource_same hp hn hsource r.compiler
      rw [hpassed]
      exact ⟨hr, hremembers⟩
    rcases installSource_cases hp hn hsource with ⟨e, hfailed⟩ | ⟨c, b, i, hc, hcompile, hi, hdone⟩
    · rw [hfailed]
      exact ⟨hr, hremembers⟩
    · rw [hdone]
      refine ⟨hr.keeps (keeps_putIteration r k _), fun m hm => ?_⟩
      obtain ⟨m', hm', htype, hmembers, hsource'⟩ :=
        source_putIteration hn { i with source := some source }
      rw [hm] at hm'
      cases hm'
      refine ⟨hsource', fun text htext => ?_⟩
      cases htext
      obtain rfl := hcompiler c hc
      rw [htype, hmembers]
      exact ⟨b, i, hcompile, hi, rfl⟩

/-! ## Sources that are installed -/

/-- What becomes of the installation of a source at a unit with a history of attempts. -/
structure SourceInstalled (compiler : Compiler) (k : Handle) (as : List Attempt) (r : Root)
    (p : Path) (source : String) : Prop where
  /-- It is passed over exactly if the last successful attempt was one with the same source. -/
  passed_iff : (r.installSource p source).1 = .ok false ↔ lastSource as = some source
  /-- If it is passed over, nothing changes, and it makes no difference what the compiler is. -/
  passed : (r.installSource p source).1 = .ok false → ∀ c : Option Compiler,
    { r with compiler := c }.installSource p source = (.ok false, { r with compiler := c })
  /-- If it is accepted, the unit has what the compiler makes of the source. -/
  accepted : ∀ flag, (r.installSource p source).1 = .ok flag →
    ∃ m, (r.installSource p source).2.units.get? k = some m ∧
      m.iteration.source = some source ∧ compiler.Declares m.typeName source m.iteration.members
  /-- If it fails, nothing changes. -/
  failed : r.Intact (r.installSource p source)

/-- The installation of sources is sound.  After whatever has been done with a root, and whatever
attempts have been made to give a unit a behavior, an installation of a source at the unit is passed
over exactly if the last attempt that was successful was one with the same source; then nothing is
compiled and nothing changes.  Whenever it is accepted, the behavior in place declares what the
compiler makes of the source.  Attempts that fail change nothing. -/
theorem source_installed (h : Attempts compiler k as r) (hp : r.handle? p = some k)
    (hcompiler : ∀ c, r.compiler = some c → c = compiler) (source : String) :
    SourceInstalled compiler k as r p source ∧ ∀ b, r.Intact (r.install p b) := by
  obtain ⟨hr, hremembers⟩ := h.remembers
  obtain ⟨-, hremembers'⟩ := (h.installSource hp hcompiler source).remembers
  obtain ⟨n, hn, -⟩ := exists_of_handle hr.skeleton.index hp
  have hpassed : (r.installSource p source).1 = .ok false ↔ lastSource as = some source := by
    rw [← (hremembers n hn).source]
    exact installSource_passed_iff hp hn source
  have haccepted : ∀ flag, (r.installSource p source).1 = .ok flag →
      lastSource (.compile source (r.installSource p source).1 :: as) = some source := by
    intro flag hflag
    rw [hflag]
    cases flag with
    | false => exact hpassed.mp hflag
    | true => rfl
  refine ⟨⟨hpassed, fun hok => ?_, fun flag hflag => ?_, intact_installSource r p source⟩,
    intact_install r p⟩
  · exact installSource_same hp hn ((installSource_passed_iff hp hn source).mp hok)
  · obtain ⟨m, hm⟩ := exists_installSource hp hn source
    have hm' := hremembers' m hm
    rw [haccepted flag hflag] at hm'
    exact ⟨m, hm, hm'.source, hm'.declared source rfl⟩

/-- A compiler that knows one source. -/
def workshop : Compiler where
  compile _ source := if source = "heater" then .ok heater else .error "unknown source"

/-- A root with a lamp and the workshop. -/
def equipped (r : Root) : Root :=
  (Operation.setCompiler workshop).run
    ((Operation.addChildWith rootPath "lamp" "lamp" lamp).run r)

/-- Whatever puts nothing in place is no installation. -/
lemma ne_putIteration (h : s.installed = r.installed) (i : Iteration) : s ≠ r.putIteration k i := by
  rintro rfl
  have hinstalled : (r.putIteration k i).installed = i.members :: r.installed :=
    (catalog_act (r.enlist i) k _).2
  exact List.cons_ne_self _ _ (hinstalled.symm.trans h)

/-- A lamp was given the behavior of a heater from its source and then none from a source that
nobody knows, and the source of the heater is passed over. -/
theorem source_installed_heater :
    ∃ r, Root.new {} .base = .ok r ∧
      let s := ((((equipped r).installSource lampPath "heater").2).installSource lampPath "dark").2
      Attempts workshop ⟨1, 0⟩
          [.compile "dark" (.error (.install (.compile "unknown source"))),
            .compile "heater" (.ok true)] s ∧
        s.installSource lampPath "heater" = (.ok false, s) := by
  obtain ⟨r, hr⟩ : ∃ r, Root.new {} .base = .ok r := ⟨_, rfl⟩
  refine ⟨r, hr, ?_⟩
  have hkind : NodeKind.component ≠ .root := nofun
  have hadded : Attempts workshop ⟨1, 0⟩ []
      ((Operation.addChildWith rootPath "lamp" "lamp" lamp).run r) := by
    refine .absent (.new hr) (.deed (.add rootPath "lamp" "lamp" hkind lamp)) ?_
    cases hr
    rfl
  have hequipped : Attempts workshop ⟨1, 0⟩ [] (equipped r) := by
    refine .other hadded (.deed (.learn _ (some workshop) _)) ?_ (ne_putIteration rfl)
    cases hr
    rfl
  have hcompiler : ∀ c, (equipped r).compiler = some c → c = workshop := by
    intro c hc
    exact (Option.some.inj hc).symm
  have hheater := hequipped.installSource (p := lampPath) (by cases hr; rfl) hcompiler "heater"
  have hdark := hheater.installSource (p := lampPath) (by cases hr; rfl)
    (by cases hr; exact fun c hc => (Option.some.inj hc).symm) "dark"
  have hfirst : ((equipped r).installSource lampPath "heater").1 = .ok true := by
    cases hr
    rfl
  have hsecond : ((((equipped r).installSource lampPath "heater").2).installSource
      lampPath "dark").1 = .error (.install (.compile "unknown source")) := by
    cases hr
    rfl
  rw [hfirst, hsecond] at hdark
  obtain ⟨hinstalled, -⟩ := source_installed hdark (p := lampPath) (by cases hr; rfl)
    (by cases hr; exact fun c hc => (Option.some.inj hc).symm) "heater"
  have hpassed := hinstalled.passed (hinstalled.passed_iff.mpr rfl)
  exact ⟨hdark, hpassed _⟩

end Root

end Switchboard
