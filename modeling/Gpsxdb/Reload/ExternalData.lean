import Mathlib.Tactic
import Gpsxdb.Reload.WMMLoader

/-!
The airports and the obstacles: `Replicator::checkExternalData`, and the load of an import
with `seedExternalDataTimestamp` after it.

* `Publications`: the versions of a data set upstream; `needsReload`;
* `Process`, `DataSet`, `Event`, `step`, `run`: the table, the stamp, and any number of
  processes, which check or import step by step, in any order;
* `NothingMissed`: the property; `Sound`: the stamp speaks for the table;
* `Fits`, `Reached`, `sound_step`, `nothingMissed_of_reached`: **when no refresh is
  missed**; `exists_miss_of_not_fits`: otherwise one can be;
* `seed_hides_publication`: a version published between a load and its seed.
-/

namespace Gpsxdb

open WMMLoader (Fate)

namespace ExternalData

/-! ### Upstream -/

def kUpdateToleranceSeconds : ℤ := 300

/-- The `Last-Modified` of each version of a data set. -/
structure Publications where
  lastModified : ℕ → ℤ
  nonneg : ∀ v, 0 ≤ lastModified v
  gap : ∀ v, lastModified v + kUpdateToleranceSeconds < lastModified (v + 1)

lemma Publications.strictMono (pub : Publications) : StrictMono pub.lastModified := by
  refine strictMono_nat_of_lt_succ fun v => ?_
  have hgap := pub.gap v
  simp only [kUpdateToleranceSeconds] at hgap
  omega

lemma Publications.gap_of_lt (pub : Publications) {u v : ℕ} (h : u < v) :
    pub.lastModified u + kUpdateToleranceSeconds < pub.lastModified v :=
  lt_of_lt_of_le (pub.gap u) (pub.strictMono.monotone h)

/-- The test of `checkExternalData`. -/
def needsReload (remote_mtime known_mtime : ℤ) : Bool :=
  !(0 ≤ known_mtime && |remote_mtime - known_mtime| ≤ kUpdateToleranceSeconds)

/-- **The test tells the versions apart.** -/
lemma needsReload_eq_false_iff {pub : Publications} {u v : ℕ} :
    needsReload (pub.lastModified v) (pub.lastModified u) = false ↔ u = v := by
  simp only [needsReload, Bool.not_eq_false', Bool.and_eq_true, decide_eq_true_eq]
  constructor
  · rintro ⟨-, hclose⟩
    rw [abs_le] at hclose
    rcases lt_trichotomy u v with hlt | heq | hlt
    · linarith [pub.gap_of_lt hlt]
    · exact heq
    · linarith [pub.gap_of_lt hlt]
  · rintro rfl
    refine ⟨pub.nonneg u, ?_⟩
    rw [sub_self, abs_zero, kUpdateToleranceSeconds]
    decide

/-! ### The system -/

/-- Where a process stands.  A version a check has seen goes with it; an import has seen
none until the seed. -/
inductive Process where
  | idle
  | checking (remote : ℕ)
  | loading (check : Option ℕ)
  | downloaded (check : Option ℕ) (v : ℕ)
  | truncated (check : Option ℕ) (v : ℕ)
  | seeding
  | stamping (remote : ℕ)

/-- The version a process has seen by its HEAD request. -/
def Process.remote : Process → Option ℕ
  | .checking remote => some remote
  | .loading check => check
  | .downloaded check _ => check
  | .truncated check _ => check
  | .stamping remote => some remote
  | _ => none

/-- How the streams into the tables go: stored, stored although the load throws, stored
in part, and not stored. -/
inductive Copy where
  | complete
  | inDoubt
  | torn
  | nothing
deriving DecidableEq

/-- What a load of a version adds to the table; `none` is a part of a version. -/
def Copy.rows (v : ℕ) : Copy → List (Option ℕ)
  | .complete => [some v]
  | .inDoubt => [some v]
  | .torn => [none]
  | .nothing => []

/-- The version upstream, what was copied into the table since it was last truncated,
the stamp, and the processes. -/
structure DataSet where
  current : ℕ
  table : List (Option ℕ)
  stamp : Option ℤ
  processes : ℕ → Process

/-- A publication, or a step of a process with how it goes. -/
inductive Event where
  | publish
  | crash (p : ℕ)
  | checkHead (p : ℕ) (ok : Bool)
  | checkKnown (p : ℕ) (readable : Bool)
  | importLoad (p : ℕ)
  | download (p : ℕ) (ok : Bool)
  | truncate (p : ℕ) (fate : Fate)
  | copy (p : ℕ) (c : Copy)
  | seedHead (p : ℕ) (ok : Bool)
  | setTimestamp (p : ℕ) (fate : Fate)

namespace DataSet

variable (pub : Publications) (s : DataSet)

/-- Nothing loaded, and no stamp. -/
def fresh : DataSet := ⟨0, [], none, fun _ => .idle⟩

/-- A process moves on. -/
def put (p : ℕ) (q : Process) : DataSet := { s with processes := Function.update s.processes p q }

/-- A load has returned true: a check stores the stamp it has seen, an import turns to
the seed. -/
def afterLoad : Option ℕ → Process
  | some remote => .stamping remote
  | none => .seeding

/-- One step; `none` where the process is not at that step. -/
def step : Event → Option DataSet
  | .publish => some { s with current := s.current + 1 }
  | .crash p => some (s.put p .idle)
  | .checkHead p ok =>
      match s.processes p with
      | .idle => some (s.put p (if ok then .checking s.current else .idle))
      | _ => none
  | .checkKnown p readable =>
      match s.processes p with
      | .checking remote => some (s.put p
          (if needsReload (pub.lastModified remote)
              (Replicator.getExternalDataTimestamp readable s.stamp)
            then .loading (some remote) else .idle))
      | _ => none
  | .importLoad p =>
      match s.processes p with
      | .idle => some (s.put p (.loading none))
      | _ => none
  | .download p ok =>
      match s.processes p with
      | .loading check => some (s.put p (if ok then .downloaded check s.current else .idle))
      | _ => none
  | .truncate p fate =>
      match s.processes p with
      | .downloaded check v =>
          match fate with
          | .committed => some { s.put p (.truncated check v) with table := [] }
          | .inDoubt => some { s.put p .idle with table := [] }
          | .failed => some (s.put p .idle)
      | _ => none
  | .copy p c =>
      match s.processes p with
      | .truncated check v => some
          { s.put p (if c = .complete then afterLoad check else .idle) with
            table := s.table ++ c.rows v }
      | _ => none
  | .seedHead p ok =>
      match s.processes p with
      | .seeding => some (s.put p (if ok then .stamping s.current else .idle))
      | _ => none
  | .setTimestamp p fate =>
      match s.processes p with
      | .stamping remote => some
          { s.put p .idle with
            stamp := (Replicator.setExternalDataTimestamp fate (pub.lastModified remote)
              s.stamp).1 }
      | _ => none

/-- A run. -/
def run (events : List Event) : Option DataSet := events.foldlM (step pub) s

/-- **No refresh is missed**: where a check decides that no reload is needed, the table
holds the version that was current at its HEAD request. -/
def NothingMissed : Prop :=
  ∀ p remote, s.processes p = .checking remote → ∀ readable,
    needsReload (pub.lastModified remote)
      (Replicator.getExternalDataTimestamp readable s.stamp) = false → s.table = [some remote]

/-! ### When nothing is missed -/

/-- A version that a check has seen, or would see now. -/
def Seen (v : ℕ) : Prop := v = s.current ∨ ∃ p, s.processes p = .checking v

/-- The stamp speaks for the table. -/
def Sound : Prop :=
  ∀ v, s.Seen v → s.stamp = some (pub.lastModified v) → s.table = [some v]

/-- A step fits: a load truncates the table only while the stamp is of no version a
check may see, copies what such a stamp says, and a stamp that a check may see is stored
only while the table holds its version. -/
def Fits : Event → Prop
  | .truncate _ fate => fate ≠ .failed → ∀ v, s.Seen v → s.stamp ≠ some (pub.lastModified v)
  | .copy p c => ∀ check u, s.processes p = .truncated check u → ∀ v, s.Seen v →
      s.stamp = some (pub.lastModified v) → s.table ++ c.rows u = [some v]
  | .setTimestamp p fate => fate ≠ .failed → ∀ remote, s.processes p = .stamping remote →
      s.Seen remote → s.table = [some remote]
  | _ => True

/-- The states of runs whose steps all fit. -/
inductive Reached : DataSet → Prop
  | fresh : Reached fresh
  | step {s s' : DataSet} {e : Event} : Reached s → s.Fits pub e → s.step pub e = some s' →
      Reached s'

/-! ### Stamps -/

variable {pub s} {s' : DataSet} {e : Event} {p : ℕ} {q : Process}

/-- **The invariant**: the stamp and the versions of the checks are of versions that have
been published, and some process is idle. -/
structure Dated (pub : Publications) (s : DataSet) : Prop where
  stamp : ∀ x, s.stamp = some x → ∃ v ≤ s.current, x = pub.lastModified v
  remote : ∀ p v, (s.processes p).remote = some v → v ≤ s.current
  idle : ∃ n, ∀ p, n ≤ p → s.processes p = .idle

lemma dated_fresh : Dated pub fresh :=
  ⟨by simp [fresh], by simp [fresh, Process.remote], 0, fun _ _ => rfl⟩

/-- A check that can read the stamp finds no need exactly when the stamp is of the version
it has seen. -/
lemma Dated.needsReload_iff (h : Dated pub s) (remote : ℕ) (readable : Bool) :
    needsReload (pub.lastModified remote)
        (Replicator.getExternalDataTimestamp readable s.stamp) = false
      ↔ readable = true ∧ s.stamp = some (pub.lastModified remote) := by
  have hneg : needsReload (pub.lastModified remote) (-1) ≠ false := by simp [needsReload]
  cases readable with
  | false => simp [Replicator.getExternalDataTimestamp, hneg]
  | true =>
      cases hstamp : s.stamp with
      | none => simp [Replicator.getExternalDataTimestamp, hneg]
      | some x =>
          obtain ⟨u, -, rfl⟩ := h.stamp x hstamp
          simp [Replicator.getExternalDataTimestamp, needsReload_eq_false_iff,
            pub.strictMono.injective.eq_iff]

/-- **Where the stamp speaks for the table**, no check misses a refresh. -/
lemma Sound.nothingMissed (h : Dated pub s) (hsound : s.Sound pub) : s.NothingMissed pub := by
  intro p remote hp readable hno
  exact hsound remote (Or.inr ⟨p, hp⟩) ((h.needsReload_iff remote readable).mp hno).2

/-! ### Steps -/

/-- What a process turns to: a check sees the current version, and no version comes from
elsewhere. -/
structure Follows (s : DataSet) (p : ℕ) (q : Process) : Prop where
  checking : ∀ v, q = .checking v → v = s.current
  remote : ∀ v, q.remote = some v → v = s.current ∨ (s.processes p).remote = some v

/-- **What a step does.** -/
inductive Moved (pub : Publications) (s : DataSet) : Event → DataSet → Prop
  | publish : Moved pub s .publish { s with current := s.current + 1 }
  | put {e : Event} {p : ℕ} {q : Process} (hfits : s.Fits pub e) (hq : s.Follows p q) :
      Moved pub s e (s.put p q)
  | truncate {p : ℕ} {fate : Fate} {check : Option ℕ} {v : ℕ} {q : Process}
      (hp : s.processes p = .downloaded check v) (hfate : fate ≠ .failed) (hq : s.Follows p q) :
      Moved pub s (.truncate p fate) { s.put p q with table := [] }
  | copy {p : ℕ} {c : Copy} {check : Option ℕ} {v : ℕ} {q : Process}
      (hp : s.processes p = .truncated check v) (hq : s.Follows p q) :
      Moved pub s (.copy p c) { s.put p q with table := s.table ++ c.rows v }
  | stamp {p : ℕ} {fate : Fate} {remote : ℕ} (hp : s.processes p = .stamping remote)
      (hfate : fate ≠ .failed) (hq : s.Follows p .idle) :
      Moved pub s (.setTimestamp p fate)
        { s.put p .idle with stamp := some (pub.lastModified remote) }

lemma follows_idle : s.Follows p .idle := ⟨by simp, by simp [Process.remote]⟩

/-- A process goes on with the version it has seen. -/
lemma follows_of_remote (hq : ∀ v, q ≠ .checking v) (h : q.remote = (s.processes p).remote) :
    s.Follows p q :=
  ⟨fun v hv => absurd hv (hq v), fun _ hv => Or.inr (h ▸ hv)⟩

lemma follows_checking : s.Follows p (.checking s.current) :=
  ⟨fun _ h => (Process.checking.inj h).symm, fun _ h => Or.inl (Option.some.inj h).symm⟩

lemma follows_stamping : s.Follows p (.stamping s.current) :=
  ⟨by simp, fun _ h => Or.inl (Option.some.inj h).symm⟩

lemma follows_afterLoad {check : Option ℕ} (h : (s.processes p).remote = check) :
    s.Follows p (afterLoad check) := by
  subst h
  cases hremote : (s.processes p).remote with
  | none => exact ⟨by simp [afterLoad], by simp [afterLoad, Process.remote]⟩
  | some v => exact follows_of_remote (by simp [afterLoad]) hremote.symm

lemma moved_of_step (h : s.step pub e = some s') : Moved pub s e s' := by
  cases e with
  | publish =>
      obtain rfl := Option.some.inj h
      exact .publish
  | crash p =>
      obtain rfl := Option.some.inj h
      exact .put trivial follows_idle
  | checkHead p ok =>
      simp only [step] at h
      split at h
      · obtain rfl := Option.some.inj h
        refine .put trivial ?_
        cases ok with
        | true => exact follows_checking
        | false => exact follows_idle
      · cases h
  | checkKnown p readable =>
      simp only [step] at h
      split at h
      · rename_i remote hp
        obtain rfl := Option.some.inj h
        refine .put trivial ?_
        split
        · exact follows_of_remote (by simp) (by rw [hp]; rfl)
        · exact follows_idle
      · cases h
  | importLoad p =>
      simp only [step] at h
      split at h
      · rename_i hp
        obtain rfl := Option.some.inj h
        exact .put trivial (follows_of_remote (by simp) (by rw [hp]; rfl))
      · cases h
  | download p ok =>
      simp only [step] at h
      split at h
      · rename_i check hp
        obtain rfl := Option.some.inj h
        refine .put trivial ?_
        cases ok with
        | true => exact follows_of_remote (by simp) (by rw [hp]; rfl)
        | false => exact follows_idle
      · cases h
  | truncate p fate =>
      simp only [step] at h
      split at h
      · rename_i check v hp
        cases fate with
        | committed =>
            obtain rfl := Option.some.inj h
            exact .truncate hp (by simp) (follows_of_remote (by simp) (by rw [hp]; rfl))
        | inDoubt =>
            obtain rfl := Option.some.inj h
            exact .truncate hp (by simp) follows_idle
        | failed =>
            obtain rfl := Option.some.inj h
            exact .put (by simp [Fits]) follows_idle
      · cases h
  | copy p c =>
      simp only [step] at h
      split at h
      · rename_i check v hp
        obtain rfl := Option.some.inj h
        refine .copy hp ?_
        split
        · exact follows_afterLoad (by rw [hp]; rfl)
        · exact follows_idle
      · cases h
  | seedHead p ok =>
      simp only [step] at h
      split at h
      · obtain rfl := Option.some.inj h
        refine .put trivial ?_
        cases ok with
        | true => exact follows_stamping
        | false => exact follows_idle
      · cases h
  | setTimestamp p fate =>
      simp only [step] at h
      split at h
      · rename_i remote hp
        obtain rfl := Option.some.inj h
        cases fate with
        | committed => exact .stamp hp (by simp) follows_idle
        | inDoubt => exact .stamp hp (by simp) follows_idle
        | failed => exact .put (by simp [Fits]) follows_idle
      · cases h

/-! ### The invariant -/

/-- A process moves on, and the rest stays or is published already. -/
lemma Dated.put (h : Dated pub s) (hq : s.Follows p q) {table : List (Option ℕ)}
    {stamp : Option ℤ} (hstamp : ∀ x, stamp = some x → ∃ v ≤ s.current, x = pub.lastModified v) :
    Dated pub ⟨s.current, table, stamp, Function.update s.processes p q⟩ := by
  obtain ⟨n, hn⟩ := h.idle
  refine ⟨hstamp, fun u v (hv : (Function.update s.processes p q u).remote = some v) => ?_,
    max n (p + 1), fun u hu => ?_⟩
  · by_cases hup : u = p
    · subst hup
      rw [Function.update_self] at hv
      rcases hq.remote v hv with rfl | hold
      · exact le_rfl
      · exact h.remote u v hold
    · rw [Function.update_of_ne hup] at hv
      exact h.remote u v hv
  · have hup : u ≠ p := by omega
    exact (Function.update_of_ne hup ..).trans (hn u (by omega))

lemma dated_step (h : Dated pub s) (hstep : s.step pub e = some s') : Dated pub s' := by
  cases moved_of_step hstep with
  | publish =>
      refine ⟨fun x hx => ?_, fun p v hv => (h.remote p v hv).trans (Nat.le_succ _), h.idle⟩
      obtain ⟨v, hv, rfl⟩ := h.stamp x hx
      exact ⟨v, hv.trans (Nat.le_succ _), rfl⟩
  | put hfits hq => exact h.put hq h.stamp
  | truncate hp hfate hq => exact h.put hq h.stamp
  | copy hp hq => exact h.put hq h.stamp
  | @stamp p fate remote hp hfate hq =>
      refine h.put hq fun x hx => ⟨remote, h.remote p remote ?_, (Option.some.inj hx).symm⟩
      rw [hp]
      rfl

lemma dated_of_reached (h : Reached pub s) : Dated pub s := by
  induction h with
  | fresh => exact dated_fresh
  | step _ _ hstep ih => exact dated_step ih hstep

/-- The versions that are seen after a process moves on. -/
lemma Follows.seen (hq : s.Follows p q) {table : List (Option ℕ)} {stamp : Option ℤ} {v : ℕ}
    (h : DataSet.Seen ⟨s.current, table, stamp, Function.update s.processes p q⟩ v) :
    s.Seen v := by
  rcases h with hv | ⟨u, (hu : Function.update s.processes p q u = .checking v)⟩
  · exact Or.inl hv
  · by_cases hup : u = p
    · subst hup
      rw [Function.update_self] at hu
      exact Or.inl (hq.checking v hu)
    · rw [Function.update_of_ne hup] at hu
      exact Or.inr ⟨u, hu⟩

/-- **A step that fits keeps the stamp to the table.** -/
lemma sound_step (hdated : Dated pub s) (h : s.Sound pub) (hfits : s.Fits pub e)
    (hstep : s.step pub e = some s') : s'.Sound pub := by
  cases moved_of_step hstep with
  | publish =>
      rintro v (rfl | hseen) hstamp
      · -- no stamp is of a version that is only published now
        obtain ⟨u, hu, heq⟩ := hdated.stamp _ hstamp
        have hvu := pub.strictMono.injective heq
        dsimp only at hvu
        omega
      · exact h v (Or.inr hseen) hstamp
  | put _ hq => exact fun v hv => h v (hq.seen hv)
  | truncate hp hfate hq => exact fun v hv hstamp => absurd hstamp (hfits hfate v (hq.seen hv))
  | copy hp hq => exact fun v hv => hfits _ _ hp v (hq.seen hv)
  | @stamp p fate remote hp hfate hq =>
      intro v hv hstamp
      obtain rfl := pub.strictMono.injective (Option.some.inj hstamp)
      exact hfits hfate _ hp (hq.seen hv)

lemma sound_of_reached (h : Reached pub s) : s.Sound pub := by
  induction h with
  | fresh => exact fun v _ hstamp => by simp [fresh] at hstamp
  | step hreached hfits hstep ih => exact sound_step (dated_of_reached hreached) ih hfits hstep

/-- **In runs whose steps all fit no refresh is missed.** -/
theorem nothingMissed_of_reached (h : Reached pub s) : s.NothingMissed pub :=
  (sound_of_reached h).nothingMissed (dated_of_reached h)

/-- A process that was in no check moves on: what was seen is still seen. -/
lemma Seen.keep {v : ℕ} (h : s.Seen v) (hp : ∀ v, s.processes p ≠ .checking v)
    {table : List (Option ℕ)} {stamp : Option ℤ} :
    DataSet.Seen ⟨s.current, table, stamp, Function.update s.processes p q⟩ v := by
  rcases h with hv | ⟨u, hu⟩
  · exact Or.inl hv
  · have hup : u ≠ p := by
      rintro rfl
      exact hp v hu
    exact Or.inr ⟨u, (Function.update_of_ne hup ..).trans hu⟩

/-- A step that does not fit leaves a stamp that does not speak for the table. -/
lemma not_sound_of_not_fits (hstep : s.step pub e = some s') (hfits : ¬ s.Fits pub e) :
    ¬ s'.Sound pub := by
  intro hsound
  refine hfits ?_
  cases moved_of_step hstep with
  | publish => trivial
  | put h _ => exact h
  | truncate hp hfate _ =>
      intro _ v hv hstamp
      have hseen := hsound v (hv.keep (by simp [hp])) hstamp
      cases hseen
  | copy hp _ =>
      intro check u hu v hv hstamp
      rw [hp] at hu
      obtain ⟨rfl, rfl⟩ := Process.truncated.inj hu
      exact hsound v (hv.keep (by simp [hp])) hstamp
  | stamp hp hfate _ =>
      intro _ remote hremote hv
      rw [hp] at hremote
      obtain rfl := Process.stamping.inj hremote
      exact hsound _ (hv.keep (by simp [hp])) rfl

/-- **A stamp that does not speak for the table** makes a check miss a refresh: one that
is under way, or one that starts now. -/
lemma exists_miss_of_not_sound (hdated : Dated pub s) (h : ¬ s.Sound pub) :
    ∃ events s', s.run pub events = some s' ∧ ¬ s'.NothingMissed pub := by
  simp only [Sound, not_forall] at h
  obtain ⟨v, hseen, hstamp, htable⟩ := h
  have hno := (hdated.needsReload_iff v true).mpr ⟨rfl, hstamp⟩
  rcases hseen with rfl | ⟨p, hp⟩
  · obtain ⟨n, hn⟩ := hdated.idle
    refine ⟨[.checkHead n true], s.put n (.checking s.current), ?_, fun hmissed => ?_⟩
    · simp [run, step, hn n le_rfl]
    · exact htable (hmissed n s.current (Function.update_self ..) true hno)
  · exact ⟨[], s, rfl, fun hmissed => htable (hmissed p v hp true hno)⟩

/-- **A step that does not fit** can be followed by a missed refresh. -/
theorem exists_miss_of_not_fits (h : Reached pub s) (hstep : s.step pub e = some s')
    (hfits : ¬ s.Fits pub e) :
    ∃ events s'', s'.run pub events = some s'' ∧ ¬ s''.NothingMissed pub :=
  exists_miss_of_not_sound (dated_step (dated_of_reached h) hstep)
    (not_sound_of_not_fits hstep hfits)

/-! ### Two runs -/

/-- A version a day. -/
def daily : Publications where
  lastModified v := 86400 * v
  nonneg v := by positivity
  gap v := by
    rw [kUpdateToleranceSeconds]
    push_cast
    omega

/-- An import whose seed finds the version that was loaded, and a check after it. -/
theorem nothingMissed_after_import : ∃ s, fresh.run daily
      [.importLoad 0, .download 0 true, .truncate 0 .committed, .copy 0 .complete,
        .seedHead 0 true, .setTimestamp 0 .committed, .publish, .checkHead 1 true] = some s
    ∧ s.processes 1 = .checking 1 ∧ s.NothingMissed daily := by
  have hdownloaded : Reached daily _ :=
    .step (e := .download 0 true) (.step (e := .importLoad 0) .fresh trivial rfl) trivial rfl
  have htruncated : Reached daily _ :=
    .step (e := .truncate 0 .committed) hdownloaded (fun _ _ _ h => by cases h) rfl
  have hcopied : Reached daily _ :=
    .step (e := .copy 0 .complete) htruncated (fun _ _ _ _ _ h => by cases h) rfl
  have hseeding : Reached daily _ := .step (e := .seedHead 0 true) hcopied trivial rfl
  have hstamped : Reached daily _ :=
    .step (e := .setTimestamp 0 .committed) hseeding (fun _ remote h _ => by cases h; rfl) rfl
  have hchecking : Reached daily _ :=
    .step (e := .checkHead 1 true) (.step (e := .publish) hstamped trivial rfl) trivial rfl
  exact ⟨_, rfl, rfl, nothingMissed_of_reached hchecking⟩

/-- **A version that is published between the load and the seed of an import** is missed:
the stamp is that of the new version, the table holds the old one. -/
theorem seed_hides_publication : ∃ s, fresh.run daily
      [.importLoad 0, .download 0 true, .publish, .truncate 0 .committed, .copy 0 .complete,
        .seedHead 0 true, .setTimestamp 0 .committed, .checkHead 1 true] = some s
    ∧ s.processes 1 = .checking 1 ∧ s.table = [some 0] ∧ ¬ s.NothingMissed daily := by
  refine ⟨_, rfl, rfl, rfl, fun hmissed => ?_⟩
  have htable := hmissed 1 1 rfl true (by decide)
  cases htable

end DataSet

end ExternalData

end Gpsxdb
