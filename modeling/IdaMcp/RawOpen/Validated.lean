import IdaMcp.RawOpen.Step

namespace IdaMcp

open Foundation

namespace LockFile

def Phase.keeps : Phase → Bool
  | .setLen _ | .writeInfo _ | .held _ => true
  | _ => false

variable {s t : State} {p q : Pid} {ok : Bool} {c : Call}

theorem Phase.named_of_keeps {phase : Phase} (h : phase.keeps = true) : ∃ file, phase.named = some file := by
  cases phase <;> simp_all [Phase.keeps, Phase.named]

theorem Exclusive.eq_of_keeps (hs : Exclusive s) (hp : (s.phase p).keeps = true)
    (hq : (s.phase q).keeps = true) : p = q := by
  obtain ⟨file, hp⟩ := Phase.named_of_keeps hp
  obtain ⟨file', hq⟩ := Phase.named_of_keeps hq
  exact hs.eq_of_named hp hq

theorem begin_phase (h : begin s p c = some t) : ∃ phase, t.phase = Function.update s.phase p phase ∧
    phase.keeps = false ∧ ((s.phase p).keeps = true → c = .release) := by
  unfold begin at h
  split at h
  all_goals cases h
  all_goals rename_i hphase
  all_goals refine ⟨_, rfl, rfl, fun hkeeps => ?_⟩
  · rw [hphase] at hkeeps
    cases hkeeps
  · rw [hphase] at hkeeps
    cases hkeeps
  · rw [hphase] at hkeeps
    cases hkeeps
  · rfl

theorem next_phase (h : next s p ok = some t) : ∃ phase, t.phase = Function.update s.phase p phase ∧
    (phase.keeps = true ↔ (s.phase p).keeps = true ∨
      ∃ file, s.phase p = .acquireLock file ∧ ok = true ∧ s.canLock p file = true) := by
  unfold next at h
  cases hph : s.phase p with
  | acquireLock file =>
    simp only [hph, Bool.and_eq_true] at h
    split_ifs at h with hgains
    · cases h
      exact ⟨_, rfl, fun _ => .inr ⟨file, rfl, hgains⟩, fun _ => rfl⟩
    · cases h
      refine ⟨_, rfl, ⟨?_, ?_⟩⟩
      · intro hkeeps
        cases hkeeps
      · rintro (hkeeps | ⟨file', hfile, hgains'⟩)
        · cases hkeeps
        · cases hfile
          exact absurd hgains' hgains
  | setLen file =>
    simp only [hph, Option.some.injEq] at h
    refine ⟨.writeInfo file, ?_, fun _ => .inl rfl, fun _ => rfl⟩
    rw [← h]
    cases ok <;> rfl
  | writeInfo file =>
    simp only [hph, Option.some.injEq] at h
    refine ⟨.held file, ?_, fun _ => .inl rfl, fun _ => rfl⟩
    rw [← h]
    cases ok <;> rfl
  | idle | held | exited =>
    simp only [hph] at h
    cases h
  | _ =>
    simp only [hph] at h
    repeat' split at h
    all_goals cases h
    all_goals refine ⟨_, rfl, ?_⟩
    all_goals simp [Phase.keeps]

end LockFile

namespace RawOpen

def Position.locked : Position → Bool
  | .openExisting _ | .inspect _ _ | .create _ | .finish _ _ | .opened => true
  | _ => false

namespace State

variable (s : State)

def keeps (p : Pid) : Bool := (s.lock.phase p).keeps

def waiting (p : Pid) : Bool :=
  !s.keeps p && (s.position p == .cleanStale false false || s.position p == .acquire false false)

end State

/-- Nobody gives the lock away and leaves `output` while a call that has found no database waits for
it. -/
def leavesAlone (s : State) (p : Pid) (output : Option Database) : Bool :=
  !s.keeps p || output.isNone || s.callers.all fun q => !s.waiting q

def guarded (s : State) : Action → Bool
  | .lock p ok => LockFile.locksNamedFile s.lock (.sys p ok)
  | .advance p =>
    match s.position p with
    | .release => leavesAlone s p s.output
    | _ => true
  | .exit p partialOutput =>
    match s.position p with
    | .create _ => leavesAlone s p partialOutput
    | _ => leavesAlone s p s.output
  | _ => true

def Guarded (s : State) (a : Action) : Prop := guarded s a = true

instance (s : State) (a : Action) : Decidable (Guarded s a) := inferInstanceAs (Decidable (_ = true))

def Holds (s : State) (p : Pid) : Position → Prop
  | .acquire rebuild candidate =>
    rebuild = false → candidate = false → s.keeps p = true → s.output = none ∧ s.existed p = false
  | .create rebuild => rebuild = true ∨ s.existed p = false
  | .inspect _ db => s.output = some db
  | .finish rebuild (.reused db inputHash pathMatches) => s.output = some db ∧
    existingRawIdbAction rebuild db.inputFileSha256 inputHash pathMatches = some .reuse
  | _ => True

structure Sound (s : State) : Prop where
  exclusive : LockFile.Exclusive s.lock
  called : ∀ p, s.position p ≠ .idle → p ∈ s.callers
  locked : ∀ p, (s.position p).locked = true → ∃ file, s.lock.phase p = .held file
  absent : ∀ p, s.waiting p = true → s.output ≠ none → ∃ q, s.keeps q = true
  holds : ∀ p, Holds s p (s.position p)

variable {s s' : State} {p q : Pid} {position : Position}

theorem Sound.keeps_of_locked (hs : Sound s) (h : (s.position p).locked = true) : s.keeps p = true := by
  obtain ⟨file, hheld⟩ := hs.locked p h
  rw [State.keeps, hheld]
  rfl

theorem Sound.eq_of_keeps (hs : Sound s) (hp : s.keeps p = true) (hq : s.keeps q = true) : p = q :=
  hs.exclusive.eq_of_keeps hp hq

theorem holds_of_not_keeps (h : s.keeps p = false) (hlocked : position.locked = false) : Holds s p position := by
  cases position with
  | acquire rebuild candidate =>
    intro _ _ hkeeps
    rw [h] at hkeeps
    cases hkeeps
  | openExisting | inspect | create | finish | opened => cases hlocked
  | idle | existingIdb | cleanStale | release => trivial

theorem holds_congr (houtput : s'.output = s.output) (hexisted : s'.existed p = s.existed p)
    (hkeeps : s'.keeps p = true → s.keeps p = true) (h : Holds s p position) : Holds s' p position := by
  cases position with
  | acquire rebuild candidate =>
    intro hr hc hk
    rw [houtput, hexisted]
    exact h hr hc (hkeeps hk)
  | inspect rebuild db =>
    rw [Holds, houtput]
    exact h
  | create rebuild =>
    rw [Holds, hexisted]
    exact h
  | finish rebuild source =>
    cases source with
    | created => trivial
    | reused db inputHash pathMatches =>
      rw [Holds, houtput]
      exact h
  | _ => trivial

theorem Sound.goto (hs : Sound s) (hcalled : position ≠ .idle → p ∈ s.callers)
    (hlocked : position.locked = true → ∃ file, s.lock.phase p = .held file)
    (habsent : (s.goto p position).waiting p = true → s.output ≠ none → ∃ q, s.keeps q = true)
    (hholds : Holds s p position) : Sound (s.goto p position) := by
  have hself : (s.goto p position).position p = position := Function.update_self ..
  have hother : ∀ q, q ≠ p → (s.goto p position).position q = s.position q :=
    fun q hq => Function.update_of_ne hq ..
  constructor
  · exact hs.exclusive
  · intro q hq
    by_cases hqp : q = p
    · rw [hqp, hself] at hq
      rw [hqp]
      exact hcalled hq
    · rw [hother q hqp] at hq
      exact hs.called q hq
  · intro q hq
    by_cases hqp : q = p
    · rw [hqp, hself] at hq
      rw [hqp]
      exact hlocked hq
    · rw [hother q hqp] at hq
      exact hs.locked q hq
  · intro q hq hsome
    by_cases hqp : q = p
    · rw [hqp] at hq
      exact habsent hq hsome
    · refine hs.absent q ?_ hsome
      rw [State.waiting, hother q hqp] at hq
      exact hq
  · intro q
    by_cases hqp : q = p
    · rw [hqp, hself]
      exact holds_congr rfl rfl id hholds
    · rw [hother q hqp]
      exact holds_congr rfl rfl id (hs.holds q)

theorem Sound.setOutput (hs : Sound s) (hkeeps : s.keeps p = true) (hlock : s'.lock = s.lock)
    (hposition : s'.position = s.position) (hcallers : s'.callers = s.callers)
    (hholds : Holds s' p (s.position p)) : Sound s' := by
  have hkeeps' : ∀ q, s'.keeps q = s.keeps q := fun q => by rw [State.keeps, State.keeps, hlock]
  constructor
  · rw [hlock]
    exact hs.exclusive
  · rw [hposition, hcallers]
    exact hs.called
  · rw [hposition, hlock]
    exact hs.locked
  · intro q _ _
    exact ⟨p, (hkeeps' p).trans hkeeps⟩
  · intro q
    rw [hposition]
    by_cases hqp : q = p
    · rw [hqp]
      exact hholds
    · have hq : s.keeps q = false := by
        rw [← Bool.not_eq_true]
        exact fun hq => hqp (hs.eq_of_keeps hq hkeeps)
      apply holds_of_not_keeps
      · rw [hkeeps' q, hq]
      · by_contra hlocked
        rw [Bool.not_eq_false] at hlocked
        rw [hs.keeps_of_locked hlocked] at hq
        cases hq

theorem sound_initial (output : Option Database) : Sound (initial output) where
  exclusive := LockFile.exclusive_init
  called := by intro p h; exact absurd rfl h
  locked := by intro p h; cases h
  absent := by intro p h; cases h
  holds := by intro p; trivial

theorem waiting_iff : s.waiting p = true ↔ s.keeps p = false ∧
    (s.position p = .cleanStale false false ∨ s.position p = .acquire false false) := by
  simp [State.waiting]

/-- A process enters a call to the lock or ends: it does not get the lock, and if it gives the lock away
nobody waits for it to find no database. -/
theorem Sound.setLock (hs : Sound s) {lock : LockFile.State} {phase : LockFile.Phase}
    (hexclusive : LockFile.Exclusive lock) (hphase : lock.phase = Function.update s.lock.phase p phase)
    (hnot : phase.keeps = false) (hlocked : (s.position p).locked = false)
    (hgives : s.keeps p = true → (s.position p = .idle ∨ s.position p = .release) ∧
      (s.output ≠ none → ∀ q, s.waiting q = false)) : Sound (s.setLock lock) := by
  have hself : lock.phase p = phase := by
    rw [hphase]
    exact Function.update_self ..
  have hother : ∀ q, q ≠ p → lock.phase q = s.lock.phase q := by
    intro q hq
    rw [hphase]
    exact Function.update_of_ne hq ..
  have hsame : ∀ q, (s.setLock lock).keeps q = true → q ≠ p := by
    rintro q hq rfl
    have hlost : (s.setLock lock).keeps q = false := by
      rw [State.keeps, ← hnot, ← hself]
      rfl
    rw [hq] at hlost
    cases hlost
  have hkept : ∀ q, q ≠ p → (s.setLock lock).keeps q = s.keeps q :=
    fun q hq => congrArg LockFile.Phase.keeps (hother q hq)
  constructor
  · exact hexclusive
  · exact hs.called
  · intro q hq
    have hqp : q ≠ p := by
      rintro rfl
      have hq' : (s.position q).locked = true := hq
      rw [hlocked] at hq'
      cases hq'
    obtain ⟨file, hfile⟩ := hs.locked q hq
    exact ⟨file, (hother q hqp).trans hfile⟩
  · intro q hq hsome
    obtain ⟨hk, hposition⟩ := waiting_iff.mp hq
    have hwaits : s.waiting q = true := by
      refine waiting_iff.mpr ⟨?_, hposition⟩
      by_cases hqp : q = p
      · rw [hqp] at hposition ⊢
        by_contra hkeeps
        rw [Bool.not_eq_false] at hkeeps
        have hposition' : s.position p = .cleanStale false false ∨ s.position p = .acquire false false :=
          hposition
        rcases (hgives hkeeps).1 with hidle | hrelease
        · rw [hidle] at hposition'
          rcases hposition' with h | h <;> cases h
        · rw [hrelease] at hposition'
          rcases hposition' with h | h <;> cases h
      · rw [← hkept q hqp]
        exact hk
    obtain ⟨r, hr⟩ := hs.absent q hwaits hsome
    refine ⟨r, ?_⟩
    rw [hkept r, hr]
    rintro rfl
    rw [(hgives hr).2 hsome q] at hwaits
    cases hwaits
  · intro q
    refine holds_congr (s := s) rfl rfl ?_ (hs.holds q)
    intro hk
    rw [← hkept q (hsame q hk)]
    exact hk

theorem not_waiting_of_leavesAlone (hs : Sound s) {output : Option Database}
    (h : leavesAlone s p output = true) (hkeeps : s.keeps p = true) (hsome : output ≠ none) (q : Pid) :
    s.waiting q = false := by
  rw [leavesAlone, hkeeps] at h
  simp only [Bool.not_true, Bool.false_or, Bool.or_eq_true, Option.isNone_iff_eq_none, List.all_eq_true,
    Bool.not_eq_true'] at h
  by_contra hwaits
  rw [Bool.not_eq_false] at hwaits
  have hcalled : s.position q ≠ .idle := by
    intro hidle
    rcases (waiting_iff.mp hwaits).2 with hposition | hposition
    · rw [hidle] at hposition
      cases hposition
    · rw [hidle] at hposition
      cases hposition
  rw [h.resolve_left hsome q (hs.called q hcalled)] at hwaits
  cases hwaits

theorem gainsLock_iff {ok : Bool} : gainsLock s p ok = true ↔
    ∃ file, s.lock.phase p = .acquireLock file ∧ ok = true ∧ s.lock.canLock p file = true := by
  unfold gainsLock
  constructor
  · intro h
    split at h
    · next file hphase => exact ⟨file, hphase, Bool.and_eq_true_iff.mp h⟩
    · cases h
  · rintro ⟨file, hphase, hok, hlock⟩
    rw [hphase]
    exact Bool.and_eq_true_iff.mpr ⟨hok, hlock⟩

theorem Sound.none_keeps (hs : Sound s) {lock : LockFile.State} (hexclusive : LockFile.Exclusive lock)
    (hother : ∀ q, s.keeps q = true → (lock.phase q).keeps = true) (hp : s.keeps p = false)
    (hgains : (lock.phase p).keeps = true) (hwaits : s.waiting p = true) : s.output = none := by
  by_contra hsome
  obtain ⟨q, hq⟩ := hs.absent p hwaits hsome
  have hsame : q = p := hexclusive.eq_of_keeps (hother q hq) hgains
  rw [hsame, hp] at hq
  cases hq

theorem Sound.lock (hs : Sound s) {ok : Bool} {lock : LockFile.State}
    (hok : LockFile.locksNamedFile s.lock (.sys p ok) = true) (h : LockFile.next s.lock p ok = some lock) :
    Sound { s.setLock lock with
      existed := if gainsLock s p ok then Function.update s.existed p s.output.isSome else s.existed } := by
  have hexclusive : LockFile.Exclusive lock := hs.exclusive.next hok h
  obtain ⟨phase, hphase, hkeeps⟩ := LockFile.next_phase h
  have hself : lock.phase p = phase := by
    rw [hphase]
    exact Function.update_self ..
  have hother : ∀ q, q ≠ p → lock.phase q = s.lock.phase q := by
    intro q hq
    rw [hphase]
    exact Function.update_of_ne hq ..
  have hkept : ∀ q, s.keeps q = true → (lock.phase q).keeps = true := by
    intro q hq
    by_cases hqp : q = p
    · rw [hqp, hself]
      rw [hqp] at hq
      exact hkeeps.mpr (.inl hq)
    · rw [hother q hqp]
      exact hq
  have hfree : (s.position p).locked = false := by
    by_contra hlocked
    rw [Bool.not_eq_false] at hlocked
    obtain ⟨file, hheld⟩ := hs.locked p hlocked
    simp [LockFile.next, hheld] at h
  constructor
  · exact hexclusive
  · exact hs.called
  · intro q hq
    have hqp : q ≠ p := by
      rintro rfl
      have hq' : (s.position q).locked = true := hq
      rw [hfree] at hq'
      cases hq'
    obtain ⟨file, hfile⟩ := hs.locked q hq
    exact ⟨file, (hother q hqp).trans hfile⟩
  · intro q hq hsome
    obtain ⟨hk, hposition⟩ := waiting_iff.mp hq
    have hk' : s.keeps q = false := by
      by_contra hkeeps'
      rw [Bool.not_eq_false] at hkeeps'
      have hstill : (lock.phase q).keeps = false := hk
      rw [hkept q hkeeps'] at hstill
      cases hstill
    obtain ⟨r, hr⟩ := hs.absent q (waiting_iff.mpr ⟨hk', hposition⟩) hsome
    exact ⟨r, hkept r hr⟩
  · intro q
    by_cases hqp : q = p
    · rw [hqp]
      by_cases hgains : gainsLock s p ok = true
      · obtain ⟨file, hacquire, hrest⟩ := gainsLock_iff.mp hgains
        have hp : s.keeps p = false := by
          rw [State.keeps, hacquire]
          rfl
        simp only [if_pos hgains]
        change Holds _ p (s.position p)
        cases hposition : s.position p with
        | acquire rebuild candidate =>
          rintro rfl rfl -
          have hwaits : s.waiting p = true := waiting_iff.mpr ⟨hp, .inr hposition⟩
          have hnow : (lock.phase p).keeps = true := by
            rw [hself]
            exact hkeeps.mpr (.inr ⟨file, hacquire, hrest⟩)
          have hnone := hs.none_keeps hexclusive hkept hp hnow hwaits
          refine ⟨hnone, ?_⟩
          change Function.update s.existed p s.output.isSome p = false
          rw [Function.update_self, hnone]
          rfl
        | openExisting | inspect | create | finish | opened =>
          rw [hposition] at hfree
          cases hfree
        | idle | existingIdb | cleanStale | release => trivial
      · simp only [if_neg hgains]
        refine holds_congr (s := s) rfl rfl ?_ (hs.holds p)
        intro hnow
        have hnow' : (lock.phase p).keeps = true := hnow
        rw [hself] at hnow'
        exact (hkeeps.mp hnow').resolve_right fun hex => hgains (gainsLock_iff.mpr hex)
    · refine holds_congr (s := s) rfl ?_ ?_ (hs.holds q)
      · split_ifs
        · exact Function.update_of_ne hqp ..
        · rfl
      · intro hnow
        rw [State.keeps, ← hother q hqp]
        exact hnow

theorem holds_of_unlocked (hposition : position ≠ .acquire false false)
    (hlocked : position.locked = false) : Holds s p position := by
  cases position with
  | acquire rebuild candidate =>
    rintro rfl rfl
    exact absurd rfl hposition
  | openExisting | inspect | create | finish | opened => cases hlocked
  | idle | existingIdb | cleanStale | release => trivial

theorem Sound.leave (hs : Sound s) (hcalled : s.position p ≠ .idle)
    (hlocked : position.locked = false) (hacquire : position ≠ .acquire false false)
    (hclean : position ≠ .cleanStale false false) : Sound (s.goto p position) := by
  apply hs.goto
  · intro _
    exact hs.called p hcalled
  · intro h
    rw [hlocked] at h
    cases h
  · intro hwaits
    have hself : (s.goto p position).position p = position := Function.update_self ..
    rcases (waiting_iff.mp hwaits).2 with h | h
    · rw [hself] at h
      exact absurd h hclean
    · rw [hself] at h
      exact absurd h hacquire
  · exact holds_of_unlocked hacquire hlocked

theorem Sound.goLocked (hs : Sound s) (hcalled : s.position p ≠ .idle) {file : LockFile.Inode}
    (hheld : s.lock.phase p = .held file) (hholds : Holds s p position) :
    Sound (s.goto p position) := by
  apply hs.goto
  · intro _
    exact hs.called p hcalled
  · intro _
    exact ⟨file, hheld⟩
  · intro hwaits
    have hkeeps : s.keeps p = false := (waiting_iff.mp hwaits).1
    rw [State.keeps, hheld] at hkeeps
    cases hkeeps
  · exact hholds

theorem sound_existingIdb (hs : Sound s) {rebuild : Bool} (hposition : s.position p = .existingIdb rebuild) :
    Sound (s.goto p (.cleanStale rebuild s.output.isSome)) := by
  have hself : (s.goto p (.cleanStale rebuild s.output.isSome)).position p =
      .cleanStale rebuild s.output.isSome := Function.update_self ..
  refine hs.goto ?_ ?_ ?_ trivial
  · intro _
    apply hs.called
    rw [hposition]
    exact Position.noConfusion
  · intro hlocked
    cases hlocked
  · intro hwaits hsome
    rcases (waiting_iff.mp hwaits).2 with h | h
    · rw [hself] at h
      injection h with _ hnone
      rw [Option.isSome_eq_false_iff, Option.isNone_iff_eq_none] at hnone
      exact absurd hnone hsome
    · rw [hself] at h
      cases h

theorem sound_beginAcquire (hs : Sound s) {rebuild candidate : Bool}
    (hposition : s.position p = .cleanStale rebuild candidate) {lock : LockFile.State}
    (h : LockFile.begin s.lock p .acquire = some lock) :
    Sound ((s.setLock lock).goto p (.acquire rebuild candidate)) := by
  obtain ⟨phase, hphase, hnot, honly⟩ := LockFile.begin_phase h
  have hkeeps : s.keeps p = false := by
    by_contra hkeeps
    rw [Bool.not_eq_false] at hkeeps
    cases honly hkeeps
  have hset : Sound (s.setLock lock) := by
    apply hs.setLock (hs.exclusive.begin h) hphase hnot
    · rw [hposition]
      rfl
    · intro hk
      rw [hkeeps] at hk
      cases hk
  have hkeeps' : (s.setLock lock).keeps p = false := by
    change (lock.phase p).keeps = false
    rw [hphase, Function.update_self]
    exact hnot
  refine hset.goto ?_ ?_ ?_ (holds_of_not_keeps hkeeps' rfl)
  · intro _
    apply hs.called
    rw [hposition]
    exact Position.noConfusion
  · intro hlocked
    cases hlocked
  · intro hwaits
    refine hset.absent p (waiting_iff.mpr ⟨hkeeps', .inl ?_⟩)
    have hself : ((s.setLock lock).goto p (.acquire rebuild candidate)).position p =
        .acquire rebuild candidate := Function.update_self ..
    rcases (waiting_iff.mp hwaits).2 with h | h
    · rw [hself] at h
      cases h
    · rw [hself] at h
      cases h
      exact hposition

theorem sound_beginRelease (hs : Sound s) (hposition : s.position p = .release)
    (hok : leavesAlone s p s.output = true) {lock : LockFile.State}
    (h : LockFile.begin s.lock p .release = some lock) : Sound (s.setLock lock) := by
  obtain ⟨phase, hphase, hnot, -⟩ := LockFile.begin_phase h
  apply hs.setLock (hs.exclusive.begin h) hphase hnot
  · rw [hposition]
    rfl
  · intro hkeeps
    exact ⟨.inr hposition, not_waiting_of_leavesAlone hs hok hkeeps⟩

theorem sound_acquired (hs : Sound s) {rebuild candidate : Bool} {file : LockFile.Inode}
    (hposition : s.position p = .acquire rebuild candidate) (hheld : s.lock.phase p = .held file) :
    Sound (s.goto p (if candidate then .openExisting rebuild else .create rebuild)) := by
  have hcalled : s.position p ≠ .idle := by
    rw [hposition]
    exact Position.noConfusion
  have hholds := hs.holds p
  rw [hposition] at hholds
  have hkeeps : s.keeps p = true := by
    rw [State.keeps, hheld]
    rfl
  apply hs.goLocked hcalled hheld
  cases candidate with
  | true => trivial
  | false =>
    cases rebuild with
    | true => exact .inl rfl
    | false => exact .inr (hholds rfl rfl hkeeps).2

theorem sound_advance (hs : Sound s) (hok : Guarded s (.advance p)) (h : advance s p = some s') :
    Sound s' := by
  have hcalled : ∀ {before : Position}, s.position p = before → before ≠ .idle → s.position p ≠ .idle := by
    intro before hbefore hidle
    rw [hbefore]
    exact hidle
  unfold Guarded guarded at hok
  unfold advance at h
  split at h
  · next rebuild hposition =>
    cases h
    exact sound_existingIdb hs hposition
  · next rebuild candidate hposition =>
    obtain ⟨lock, hbegin, rfl⟩ := Option.map_eq_some_iff.mp h
    exact sound_beginAcquire hs hposition hbegin
  · next rebuild candidate hposition =>
    split at h
    · next file hheld =>
      cases h
      exact sound_acquired hs hposition hheld
    · cases h
      exact hs.leave (hcalled hposition Position.noConfusion) rfl Position.noConfusion Position.noConfusion
    · cases h
  · next rebuild hposition =>
    split at h
    · next db houtput =>
      cases h
      obtain ⟨file, hheld⟩ := hs.locked p (by rw [hposition]; rfl)
      exact hs.goLocked (hcalled hposition Position.noConfusion) hheld houtput
    · cases h
  · next rebuild source hposition =>
    cases h
    obtain ⟨file, hheld⟩ := hs.locked p (by rw [hposition]; rfl)
    exact hs.goLocked (hcalled hposition Position.noConfusion) hheld trivial
  · next hposition =>
    simp only [hposition] at hok
    split at h
    · obtain ⟨lock, hbegin, rfl⟩ := Option.map_eq_some_iff.mp h
      exact sound_beginRelease hs hposition hok hbegin
    · cases h
      exact hs.leave (hcalled hposition Position.noConfusion) rfl Position.noConfusion Position.noConfusion
    · cases h
  · cases h

theorem sound_inspect (hs : Sound s) {inputHash : Sha256} {pathMatches : Bool}
    (h : inspect s p inputHash pathMatches = some s') : Sound s' := by
  unfold inspect at h
  split at h
  · next rebuild db hposition =>
    have hcalled : s.position p ≠ .idle := by
      rw [hposition]
      exact Position.noConfusion
    obtain ⟨file, hheld⟩ := hs.locked p (by rw [hposition]; rfl)
    have houtput := hs.holds p
    rw [hposition] at houtput
    split at h
    · next haction =>
      cases h
      exact hs.goLocked hcalled hheld ⟨houtput, haction⟩
    · next haction =>
      cases h
      apply hs.goLocked hcalled hheld
      left
      unfold existingRawIdbAction at haction
      cases rebuild with
      | true => rfl
      | false => simp at haction
    · cases h
      exact hs.leave hcalled rfl Position.noConfusion Position.noConfusion
  · cases h

theorem Sound.write (hs : Sound s) (hkeeps : s.keeps p = true) (hholds : ∀ s', Holds s' p (s.position p))
    (db : Database) : Sound (s.write db) :=
  hs.setOutput hkeeps rfl rfl rfl (hholds _)

theorem Sound.save (hs : Sound s) (hkeeps : s.keeps p = true) (hholds : ∀ s', Holds s' p (s.position p)) :
    Sound s.save := by
  unfold State.save
  split
  · exact hs.write hkeeps hholds _
  · exact hs

theorem sound_create (hs : Sound s) {inputHash : Sha256} (h : create s p inputHash = some s') : Sound s' := by
  unfold create at h
  split at h
  · next rebuild hposition =>
    cases h
    have hlocked : (s.position p).locked = true := by
      rw [hposition]
      rfl
    have hcalled : s.position p ≠ .idle := by
      rw [hposition]
      exact Position.noConfusion
    obtain ⟨file, hheld⟩ := hs.locked p hlocked
    have hgone : Sound (s.goto p (.finish rebuild .created)) := hs.goLocked hcalled hheld trivial
    have hself : (s.goto p (.finish rebuild .created)).position p = .finish rebuild .created :=
      Function.update_self ..
    refine hgone.write (hs.keeps_of_locked hlocked) ?_ _
    intro s'
    rw [hself]
    trivial
  · cases h

theorem Sound.giveUp (hs : Sound s) (hlocked : (s.position p).locked = true) :
    Sound (s.goto p .release) ∧ Sound ((s.setOutput none).goto p .release) ∧
      Sound (s.save.goto p .release) := by
  have hcalled : s.position p ≠ .idle := by
    intro hidle
    rw [hidle] at hlocked
    cases hlocked
  have hgone : Sound (s.goto p .release) := hs.leave hcalled rfl Position.noConfusion Position.noConfusion
  have hkeeps : (s.goto p .release).keeps p = true := hs.keeps_of_locked hlocked
  have hself : (s.goto p .release).position p = .release := Function.update_self ..
  have hholds : ∀ s', Holds s' p ((s.goto p .release).position p) := by
    intro s'
    rw [hself]
    trivial
  refine ⟨hgone, hgone.setOutput hkeeps rfl rfl rfl (hholds _), ?_⟩
  have hsaved := hgone.save hkeeps hholds
  unfold State.save at hsaved ⊢
  cases houtput : s.output with
  | none =>
    have houtput' : (s.goto p .release).output = none := houtput
    rw [houtput'] at hsaved
    exact hsaved
  | some db =>
    have houtput' : (s.goto p .release).output = some db := houtput
    rw [houtput'] at hsaved
    exact hsaved

theorem sound_failed (hs : Sound s) {touched : Bool} (h : failed s p touched = some s') : Sound s' := by
  unfold failed at h
  split at h
  · next hposition =>
    cases h
    refine hs.leave ?_ rfl Position.noConfusion Position.noConfusion
    rw [hposition]
    exact Position.noConfusion
  · next hposition =>
    cases h
    exact (hs.giveUp (by rw [hposition]; rfl)).1
  · next hposition =>
    cases h
    exact (hs.giveUp (by rw [hposition]; rfl)).1
  · next hposition =>
    cases h
    cases touched with
    | true => exact (hs.giveUp (by rw [hposition]; rfl)).2.1
    | false => exact (hs.giveUp (by rw [hposition]; rfl)).1
  · next hposition =>
    cases h
    exact (hs.giveUp (by rw [hposition]; rfl)).2.1
  · next hposition =>
    cases h
    exact (hs.giveUp (by rw [hposition]; rfl)).2.2
  · cases h

theorem sound_openIdb (hs : Sound s) {rebuild : Bool} :
    Sound { s.goto p (.existingIdb rebuild) with callers := p :: s.callers } := by
  have hcalled : Sound { s with callers := p :: s.callers } :=
    ⟨hs.exclusive, fun q hq => List.mem_cons_of_mem _ (hs.called q hq), hs.locked, hs.absent,
      fun q => holds_congr (s := s) rfl rfl id (hs.holds q)⟩
  refine hcalled.goto ?_ ?_ ?_ trivial
  · intro _
    exact List.mem_cons_self
  · intro hlocked
    cases hlocked
  · intro hwaits
    have hself : (s.goto p (.existingIdb rebuild)).position p = .existingIdb rebuild :=
      Function.update_self ..
    rcases (waiting_iff.mp hwaits).2 with h | h
    · cases hself.symm.trans h
    · cases hself.symm.trans h

theorem sound_clean (hs : Sound s) {call : LockFile.Call} {lock : LockFile.State} (hcall : call ≠ .release)
    (hlocked : (s.position p).locked = false) (h : LockFile.begin s.lock p call = some lock) :
    Sound (s.setLock lock) := by
  obtain ⟨phase, hphase, hnot, honly⟩ := LockFile.begin_phase h
  apply hs.setLock (hs.exclusive.begin h) hphase hnot hlocked
  intro hkeeps
  exact absurd (honly hkeeps) hcall

theorem not_waiting_goto_idle (h : ∀ q, s.waiting q = false) (q : Pid) : (s.goto p .idle).waiting q = false := by
  rw [← Bool.not_eq_true, waiting_iff]
  rintro ⟨hkeeps, hposition⟩
  have hqp : q ≠ p := by
    rintro rfl
    have hself : (s.goto q .idle).position q = .idle := Function.update_self ..
    rw [hself] at hposition
    rcases hposition with h | h <;> cases h
  have hother : (s.goto p .idle).position q = s.position q := Function.update_of_ne hqp ..
  rw [hother] at hposition
  have hwaits : s.waiting q = true := waiting_iff.mpr ⟨hkeeps, hposition⟩
  rw [h q] at hwaits
  cases hwaits

theorem Sound.idle (hs : Sound s) : Sound (s.goto p .idle) := by
  refine hs.goto (fun h => absurd rfl h) (fun h => by cases h) ?_ trivial
  intro hwaits
  have hself : (s.goto p .idle).position p = .idle := Function.update_self ..
  rcases (waiting_iff.mp hwaits).2 with h | h
  · cases hself.symm.trans h
  · cases hself.symm.trans h

theorem Sound.exit (hs : Sound s) {lock : LockFile.State} (hposition : s.position p = .idle)
    (hwaits : s.keeps p = true → s.output ≠ none → ∀ q, s.waiting q = false)
    (h : LockFile.step s.lock (.exit p) = some lock) : Sound (s.setLock lock) := by
  have hphase : lock.phase = Function.update s.lock.phase p .exited := by
    simp only [LockFile.step] at h
    split_ifs at h
    cases h
    rfl
  apply hs.setLock (hs.exclusive.step rfl h) hphase rfl
  · rw [hposition]
    rfl
  · intro hkeeps
    exact ⟨.inl hposition, hwaits hkeeps⟩

theorem sound_exit (hs : Sound s) {partialOutput : Option Database} (hok : Guarded s (.exit p partialOutput))
    (h : step s (.exit p partialOutput) = some s') : Sound s' := by
  obtain ⟨lock, hlock, rfl⟩ := Option.map_eq_some_iff.mp h
  have hself : ∀ s₁ : State, (s₁.goto p .idle).position p = .idle := fun s₁ => Function.update_self ..
  unfold Guarded guarded at hok
  dsimp only at hok
  have hidle (hok : leavesAlone s p s.output = true) : Sound ((s.setLock lock).goto p .idle) := by
    refine (hs.idle (p := p)).exit (hself _) ?_ hlock
    intro hkeeps hsome
    exact not_waiting_goto_idle (not_waiting_of_leavesAlone hs hok hkeeps hsome)
  cases hposition : s.position p with
  | create rebuild =>
    simp only [hposition] at hok ⊢
    have hlocked : (s.position p).locked = true := by
      rw [hposition]
      rfl
    have hout : Sound ((s.setOutput partialOutput).goto p .idle) := by
      refine hs.idle.setOutput (hs.keeps_of_locked hlocked) rfl rfl rfl ?_
      rw [hself]
      trivial
    refine hout.exit (hself _) ?_ hlock
    intro hkeeps hsome
    have hwaits : ∀ q, (s.setOutput partialOutput).waiting q = false := fun q =>
      not_waiting_of_leavesAlone (s := s) hs hok (hs.keeps_of_locked hlocked) hsome q
    exact not_waiting_goto_idle hwaits
  | _ =>
    simp only [hposition] at hok ⊢
    exact hidle hok

theorem sound_step {a : Action} (hs : Sound s) (hok : Guarded s a) (h : step s a = some s') : Sound s' := by
  cases a with
  | openIdb p rebuild =>
    simp only [step] at h
    split_ifs at h
    cases h
    exact sound_openIdb hs
  | clean p call =>
    simp only [step] at h
    split at h
    · next hposition =>
      obtain ⟨lock, hbegin, rfl⟩ := Option.map_eq_some_iff.mp h
      exact sound_clean hs LockFile.Call.noConfusion (by rw [hposition]; rfl) hbegin
    · next hposition =>
      obtain ⟨lock, hbegin, rfl⟩ := Option.map_eq_some_iff.mp h
      exact sound_clean hs LockFile.Call.noConfusion (by rw [hposition]; rfl) hbegin
    · next hposition =>
      obtain ⟨lock, hbegin, rfl⟩ := Option.map_eq_some_iff.mp h
      exact sound_clean hs LockFile.Call.noConfusion (by rw [hposition]; rfl) hbegin
    · cases h
  | lock p ok =>
    obtain ⟨lock, hnext, rfl⟩ := Option.map_eq_some_iff.mp h
    exact hs.lock hok hnext
  | advance p => exact sound_advance hs hok h
  | inspect p inputHash pathMatches => exact sound_inspect hs h
  | create p inputHash => exact sound_create hs h
  | fails p touched => exact sound_failed hs h
  | save p =>
    simp only [step] at h
    split_ifs at h with hposition
    cases h
    apply hs.save (p := p)
    · apply hs.keeps_of_locked
      rw [hposition]
      rfl
    · intro s'
      rw [hposition]
      trivial
  | close p =>
    simp only [step] at h
    split_ifs at h with hposition
    cases h
    exact (hs.giveUp (by rw [hposition]; rfl)).2.2
  | exit p partialOutput => exact sound_exit hs hok h

theorem sound_of_reachableBy {output : Option Database}
    (h : ReachableBy step Guarded (initial output) s) : Sound s :=
  invariant_of_meets (fun _ _ _ hs hok hstep => sound_step hs hok hstep) (sound_initial output) h

/-- In a run that keeps to the guard a call creates a database only where none was when it got the lock,
or to rebuild it, and it reuses one only while the output is the one that it has validated. -/
theorem raw_open_validated {output : Option Database}
    (h : ReachableBy step Guarded (initial output) s) (p : Pid) :
    (∀ rebuild, s.position p = .create rebuild → rebuild = true ∨ s.existed p = false) ∧
    (∀ rebuild db inputHash pathMatches,
      s.position p = .finish rebuild (.reused db inputHash pathMatches) →
      s.output = some db ∧
        existingRawIdbAction rebuild db.inputFileSha256 inputHash pathMatches = some .reuse) := by
  have hholds := (sound_of_reachableBy h).holds p
  constructor
  · intro rebuild hposition
    rw [hposition] at hholds
    exact hholds
  · intro rebuild db inputHash pathMatches hposition
    rw [hposition] at hholds
    exact hholds

def acquires (p : Pid) : List Action :=
  (.advance p :: List.replicate 4 (.lock p true) : List Action) ++ ([.advance p] : List Action)

def releases (p : Pid) : List Action :=
  (.advance p :: List.replicate 3 (.lock p true) : List Action) ++ ([.advance p] : List Action)

def ones : Sha256 := Vector.replicate 32 1

def reusing : List Action :=
  ([.openIdb 1 false, .advance 1] : List Action) ++ acquires 1 ++
    ([.create 1 ones, .advance 1, .close 1] : List Action) ++ releases 1 ++
    ([.openIdb 2 false, .advance 2] : List Action) ++ acquires 2 ++
    ([.advance 2, .inspect 2 ones false] : List Action)

theorem raw_open_validated_reused : ∃ (s : State) (db : Database),
    s.position 2 = .finish false (.reused db ones false) ∧ s.output = some db := by
  have hrun : (run step (initial none) reusing).any (fun s =>
      s.position 2 == .finish false (.reused ⟨ones, 1⟩ ones false)) = true := by
    decide +kernel
  obtain ⟨s, hs, hposition⟩ := (Option.any_eq_true ..).mp hrun
  rw [beq_iff_eq] at hposition
  refine ⟨s, ⟨ones, 1⟩, hposition, ?_⟩
  exact ((raw_open_validated ⟨reusing, by decide +kernel, hs⟩ 2).2 _ _ _ _ hposition).1

def overwriting : List Action :=
  ([.openIdb 1 false, .advance 1, .openIdb 2 false, .advance 2] : List Action) ++ acquires 2 ++
    ([.create 2 ones, .advance 2, .close 2] : List Action) ++ releases 2 ++ acquires 1

theorem raw_open_overwrites : ∃ s : State, Reachable step (initial none) s ∧
    s.position 1 = .create false ∧ s.existed 1 = true := by
  have hrun : (run step (initial none) overwriting).any (fun s =>
      s.position 1 == .create false && s.existed 1) = true := by
    decide +kernel
  obtain ⟨s, hs, hend⟩ := (Option.any_eq_true ..).mp hrun
  obtain ⟨hposition, hexisted⟩ := (Bool.and_eq_true_iff ..).mp hend
  exact ⟨s, ⟨overwriting, hs⟩, beq_iff_eq.mp hposition, hexisted⟩

end RawOpen

end IdaMcp
