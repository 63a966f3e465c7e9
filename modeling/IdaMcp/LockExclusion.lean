import IdaMcp.LockFile

namespace IdaMcp.LockFile

open Foundation

namespace Phase

def holds : Phase → Bool
  | held _ | checkPath _ | removeFile _ => true
  | _ => false

def locked : Phase → Option Inode
  | setLen file | writeInfo file | held file | checkPath file | removeFile file
  | reclaimRead file _ | reclaimCheck file => some file
  | _ => none

def named : Phase → Option Inode
  | setLen file | writeInfo file | held file | checkPath file | removeFile file => some file
  | _ => none

theorem locked_of_named {ph : Phase} {file : Inode} (h : ph.named = some file) :
    ph.locked = some file := by
  cases ph <;> simp_all [named, locked]

theorem exists_named_of_holds {ph : Phase} (h : ph.holds = true) : ∃ file, ph.named = some file := by
  cases ph <;> simp_all [holds, named]

end Phase

/-- Whenever an acquire gets the lock on the inode it opened, the path still names that inode. -/
def locksNamedFile (s : State) : Action → Bool
  | .sys p true =>
    match s.phase p with
    | .acquireLock file => !s.canLock p file || s.path = some file
    | _ => true
  | _ => true

structure Exclusive (s : State) : Prop where
  owner : ∀ p file, (s.phase p).locked = some file → s.lock file = some p
  names : ∀ p file, (s.phase p).named = some file → s.path = some file

variable {s t : State} {p q : Pid} {file : Inode}

theorem exclusive_init : Exclusive init where
  owner p file h := by simp [init, Phase.locked] at h
  names p file h := by simp [init, Phase.named] at h

theorem Exclusive.eq_of_named (h : Exclusive s) {file' : Inode}
    (hp : (s.phase p).named = some file) (hq : (s.phase q).named = some file') : p = q := by
  have hfile : some file = some file' := (h.names p file hp).symm.trans (h.names q file' hq)
  cases hfile
  have howner := h.owner p file (Phase.locked_of_named hp)
  rw [h.owner q file (Phase.locked_of_named hq)] at howner
  exact (Option.some.inj howner).symm

theorem Exclusive.goto (h : Exclusive s) {ph : Phase}
    (hphase : t.phase = Function.update s.phase p ph)
    (hlock : ∀ q file, q ≠ p → s.lock file = some q → t.lock file = some q)
    (hpath : ∀ q file, q ≠ p → (s.phase q).named = some file → t.path = some file)
    (howner : ∀ file, ph.locked = some file → t.lock file = some p)
    (hnames : ∀ file, ph.named = some file → t.path = some file) : Exclusive t := by
  constructor
  · intro q file hq
    rw [hphase] at hq
    by_cases hqp : q = p
    · subst hqp
      exact howner file (by simpa using hq)
    · rw [Function.update_of_ne hqp] at hq
      exact hlock q file hqp (h.owner q file hq)
  · intro q file hq
    rw [hphase] at hq
    by_cases hqp : q = p
    · subst hqp
      exact hnames file (by simpa using hq)
    · rw [Function.update_of_ne hqp] at hq
      exact hpath q file hqp hq

theorem Exclusive.goto_frame (h : Exclusive s) {ph : Phase}
    (hphase : t.phase = Function.update s.phase p ph) (hlock : t.lock = s.lock)
    (hpath : t.path = s.path)
    (howner : ∀ file, ph.locked = some file → s.lock file = some p)
    (hnames : ∀ file, ph.named = some file → s.path = some file) : Exclusive t := by
  refine h.goto hphase (fun q file _ hq => ?_) (fun q file _ hq => ?_) ?_ ?_
  · rwa [hlock]
  · rw [hpath]
    exact h.names q file hq
  · rwa [hlock]
  · rwa [hpath]

theorem Exclusive.goto_unlocked (h : Exclusive s) {ph : Phase} (hph : ph.locked = none) :
    Exclusive (s.goto p ph) := by
  refine h.goto_frame rfl rfl rfl (fun file hfile => ?_) (fun file hfile => ?_)
  · rw [hph] at hfile
    cases hfile
  · rw [Phase.locked_of_named hfile] at hph
    cases hph

theorem Exclusive.goto_close (h : Exclusive s) {ph : Phase} (hph : ph.locked = none) :
    Exclusive ((s.closeFd p file).goto p ph) := by
  refine h.goto rfl (fun q i hqp hq => ?_) (fun q i _ hq => h.names q i hq)
    (fun i hi => ?_) (fun i hi => ?_)
  · simp only [State.goto_lock, State.closeFd, hq]
    split_ifs with hi
    · exact (hqp (Option.some.inj hi.2)).elim
    · rfl
  · rw [hph] at hi
    cases hi
  · rw [Phase.locked_of_named hi] at hph
    cases hph

theorem Exclusive.goto_exit (h : Exclusive s) : Exclusive ((s.dropLocks p).goto p .exited) := by
  refine h.goto rfl (fun q i hqp hq => ?_) (fun q i _ hq => h.names q i hq)
    (fun i hi => by cases hi) (fun i hi => by cases hi)
  simp only [State.goto_lock, State.dropLocks, hq]
  split_ifs with hi
  · exact (hqp (Option.some.inj hi)).elim
  · rfl

theorem Exclusive.goto_setLock (h : Exclusive s) (hfree : s.canLock p file = true) {ph : Phase}
    (hph : ∀ i, ph.locked = some i → i = file)
    (hnames : ∀ i, ph.named = some i → s.path = some i) :
    Exclusive ((s.setLock p file).goto p ph) := by
  refine h.goto rfl (fun q i hqp hq => ?_) (fun q i _ hq => h.names q i hq)
    (fun i hi => ?_) hnames
  · have hne : i ≠ file := by
      rintro rfl
      simp [State.canLock, hq, hqp] at hfree
    simpa [State.setLock, Function.update_of_ne hne] using hq
  · rw [hph i hi]
    simp [State.setLock]

theorem Exclusive.goto_createFile (h : Exclusive s) (hpath : s.path = none) {ph : Phase}
    (hph : ph.locked = none) : Exclusive (s.createFile.goto p ph) := by
  refine h.goto rfl (fun q i _ hq => hq) (fun q i _ hq => ?_) (fun i hi => ?_) (fun i hi => ?_)
  · have hnamed := h.names q i hq
    rw [hpath] at hnamed
    cases hnamed
  · rw [hph] at hi
    cases hi
  · rw [Phase.locked_of_named hi] at hph
    cases hph

theorem Exclusive.goto_removeFile (h : Exclusive s) (hp : (s.phase p).named = some file) {ph : Phase}
    (hph : ph.locked = none) : Exclusive ((s.setPath none).goto p ph) := by
  refine h.goto rfl (fun q i _ hq => hq) (fun q i hqp hq => ?_) (fun i hi => ?_) (fun i hi => ?_)
  · exact (hqp (h.eq_of_named hq hp)).elim
  · rw [hph] at hi
    cases hi
  · rw [Phase.locked_of_named hi] at hph
    cases hph

theorem Exclusive.begin (h : Exclusive s) {c : Call} (ht : begin s p c = some t) : Exclusive t := by
  cases hph : s.phase p with
  | idle =>
    cases c with
    | release => simp [LockFile.begin, hph] at ht
    | acquire | cleanStale | removeForPid =>
      simp only [LockFile.begin, hph, Option.some.injEq] at ht
      subst ht
      exact h.goto_unlocked rfl
  | held file =>
    cases c with
    | acquire | cleanStale | removeForPid => simp [LockFile.begin, hph] at ht
    | release =>
      simp only [LockFile.begin, hph, Option.some.injEq] at ht
      subst ht
      refine h.goto_frame rfl rfl rfl (fun i hi => h.owner p i ?_) (fun i hi => h.names p i ?_)
      · rw [hph]
        exact hi
      · rw [hph]
        exact hi
  | _ => simp [LockFile.begin, hph] at ht

theorem Exclusive.next (h : Exclusive s) {ok : Bool} (hok : locksNamedFile s (.sys p ok) = true)
    (ht : next s p ok = some t) : Exclusive t := by
  have howner := h.owner p
  have hnames := h.names p
  unfold LockFile.next at ht
  cases hph : s.phase p with
  | idle | held | exited => simp [hph] at ht
  | acquireOpen =>
    simp only [hph] at ht
    split_ifs at ht with hio
    · cases hpath : s.path with
      | some file =>
        simp only [hpath, Option.some.injEq] at ht
        subst ht
        exact h.goto_unlocked rfl
      | none =>
        simp only [hpath, Option.some.injEq] at ht
        subst ht
        exact h.goto_createFile hpath rfl
    · cases ht
      exact h.goto_unlocked rfl
  | acquireLock file =>
    simp only [hph, Bool.and_eq_true] at ht
    split_ifs at ht with hfree
    · cases ht
      obtain ⟨rfl, hfree⟩ := hfree
      have hpath : s.path = some file := by simpa [locksNamedFile, hph, hfree] using hok
      refine h.goto_setLock hfree (fun i hi => (Option.some.inj hi).symm) (fun i hi => ?_)
      rw [hpath, ← hi]
      rfl
    · cases ht
      exact h.goto_unlocked rfl
  | setLen file | writeInfo file =>
    simp only [hph, Option.some.injEq] at ht
    subst ht
    rw [hph] at howner hnames
    cases ok <;> exact h.goto_frame rfl rfl rfl howner hnames
  | checkPath file =>
    simp only [hph, Option.some.injEq] at ht
    subst ht
    split_ifs
    · rw [hph] at howner hnames
      exact h.goto_frame rfl rfl rfl howner hnames
    · exact h.goto_unlocked rfl
  | removeFile file =>
    simp only [hph, Option.some.injEq] at ht
    subst ht
    cases ok with
    | false => exact h.goto_unlocked rfl
    | true =>
      have hp : (s.phase p).named = some file := by rw [hph]; rfl
      exact h.goto_removeFile hp rfl
  | closeFile file =>
    simp only [hph, Option.some.injEq] at ht
    subst ht
    exact h.goto_close rfl
  | lockPathExists =>
    simp only [hph, Option.some.injEq] at ht
    subst ht
    split_ifs <;> exact h.goto_unlocked rfl
  | readOpen | reclaimOpen =>
    simp only [hph] at ht
    cases hopen : s.openExisting ok <;> simp only [hopen, Option.some.injEq] at ht <;> subst ht <;>
      exact h.goto_unlocked rfl
  | readPid file =>
    simp only [hph, Option.some.injEq] at ht
    subst ht
    exact h.goto_unlocked rfl
  | readClose file pid =>
    simp only [hph] at ht
    cases pid <;> simp only [Option.some.injEq] at ht <;> subst ht <;> exact h.goto_close rfl
  | isProcessRunning pid =>
    simp only [hph, Option.some.injEq] at ht
    subst ht
    split_ifs <;> exact h.goto_unlocked rfl
  | reclaimLock file expectedPid =>
    simp only [hph, Bool.and_eq_true] at ht
    split_ifs at ht with hfree
    · cases ht
      exact h.goto_setLock hfree.2 (fun i hi => (Option.some.inj hi).symm) (fun i hi => by cases hi)
    · cases ht
      exact h.goto_unlocked rfl
  | reclaimRead file expectedPid =>
    simp only [hph, Option.some.injEq] at ht
    subst ht
    rw [hph] at howner
    split_ifs
    · exact h.goto_frame rfl rfl rfl howner (fun i hi => by cases hi)
    · exact h.goto_unlocked rfl
  | reclaimCheck file =>
    simp only [hph, Option.some.injEq] at ht
    subst ht
    rw [hph] at howner
    split_ifs with hpath
    · simp only [State.lockPathNamesFile, Bool.and_eq_true, decide_eq_true_eq] at hpath
      refine h.goto_frame rfl rfl rfl howner (fun i hi => ?_)
      rw [hpath.2, ← hi]
      rfl
    · exact h.goto_unlocked rfl

theorem Exclusive.step (h : Exclusive s) {a : Action} (hok : locksNamedFile s a = true)
    (ht : step s a = some t) : Exclusive t := by
  cases a with
  | call p c => exact h.begin ht
  | sys p ok => exact h.next hok ht
  | exit p =>
    simp only [LockFile.step] at ht
    split_ifs at ht
    cases ht
    exact h.goto_exit

/-! Locks that are kept during other calls. -/

theorem next_lock {ok : Bool} (ht : next s p ok = some t) (hlock : s.lock file = some q)
    (hspares : q = p → s.phase p ≠ .closeFile file ∧ ∀ pid, s.phase p ≠ .readClose file pid) :
    t.lock file = some q := by
  have hset (i : Inode) (hfree : s.canLock p i = true) : (s.setLock p i).lock file = some q := by
    by_cases hi : file = i
    · subst hi
      have hsame : q = p := by
        rw [State.canLock, hlock] at hfree
        simpa using hfree
      rw [State.setLock, hsame]
      exact Function.update_self ..
    · rw [State.setLock]
      exact (Function.update_of_ne hi ..).trans hlock
  have hclose (i : Inode) (hi : q = p → i ≠ file) : (s.closeFd p i).lock file = some q := by
    rw [State.closeFd]
    dsimp only
    rw [if_neg, hlock]
    rintro ⟨rfl, hp⟩
    rw [hlock, Option.some_inj] at hp
    exact hi hp rfl
  unfold next at ht
  cases hph : s.phase p with
  | closeFile i =>
    simp only [hph, Option.some.injEq] at ht
    subst ht
    exact hclose i fun hq hi => (hspares hq).1 (hi ▸ hph)
  | readClose i pid =>
    have hi : q = p → i ≠ file := fun hq hi => (hspares hq).2 pid (hi ▸ hph)
    simp only [hph] at ht
    cases pid <;> simp only [Option.some.injEq] at ht <;> subst ht <;> exact hclose i hi
  | acquireLock i | reclaimLock i =>
    simp only [hph, Bool.and_eq_true] at ht
    split_ifs at ht with hfree
    · cases ht
      exact hset i hfree.2
    · cases ht
      exact hlock
  | setLen | writeInfo | removeFile =>
    simp only [hph, Option.some.injEq] at ht
    subst ht
    cases ok <;> exact hlock
  | acquireOpen =>
    simp only [hph] at ht
    split_ifs at ht
    · cases hpath : s.path <;> simp only [hpath, Option.some.injEq] at ht <;> subst ht <;> exact hlock
    · cases ht
      exact hlock
  | readOpen | reclaimOpen =>
    simp only [hph] at ht
    cases hopen : s.openExisting ok <;> simp only [hopen, Option.some.injEq] at ht <;> subst ht <;>
      exact hlock
  | idle | held | exited => simp [hph] at ht
  | checkPath | lockPathExists | readPid | isProcessRunning | reclaimRead | reclaimCheck =>
    simp only [hph, Option.some.injEq] at ht
    subst ht
    exact hlock

theorem next_path {ok : Bool} (ht : next s p ok = some t) (hpath : s.path = some file)
    (hspares : ∀ i, s.phase p = .removeFile i → ok = false) : t.path = some file := by
  unfold next at ht
  cases hph : s.phase p with
  | removeFile i =>
    simp only [hph, hspares i hph, Option.some.injEq] at ht
    subst ht
    exact hpath
  | acquireOpen =>
    simp only [hph, hpath] at ht
    split_ifs at ht <;> cases ht <;> exact hpath
  | setLen | writeInfo =>
    simp only [hph, Option.some.injEq] at ht
    subst ht
    cases ok <;> exact hpath
  | acquireLock | reclaimLock =>
    simp only [hph] at ht
    split_ifs at ht <;> cases ht <;> exact hpath
  | readOpen | reclaimOpen =>
    simp only [hph] at ht
    cases hopen : s.openExisting ok <;> simp only [hopen, Option.some.injEq] at ht <;> subst ht <;>
      exact hpath
  | readClose i pid =>
    simp only [hph] at ht
    cases pid <;> simp only [Option.some.injEq] at ht <;> subst ht <;> exact hpath
  | idle | held | exited => simp [hph] at ht
  | checkPath | closeFile | lockPathExists | readPid | isProcessRunning | reclaimRead | reclaimCheck =>
    simp only [hph, Option.some.injEq] at ht
    subst ht
    exact hpath

namespace Handles

/-- `p` has a lock that `acquire_mcp_lock` has returned and that is not released. -/
def Holds (h : Handles) (p : Pid) : Prop := (h.files.phase p).holds = true ∨ h.kept p ≠ []

/-- An acquire that locks a file finds the path naming it, and no call of a process that keeps a lock
closes another descriptor of its file or removes the path that names it. -/
def sound (h : Handles) : Move → Bool
  | .own (.sys p ok) =>
    locksNamedFile h.files (.sys p ok) &&
      match h.files.phase p with
      | .closeFile file | .readClose file _ => file ∉ h.kept p
      | .removeFile file => !ok || file ∉ h.kept p
      | _ => true
  | _ => true

structure Exclusive (h : Handles) : Prop where
  files : LockFile.Exclusive h.files
  owner : ∀ p, ∀ file ∈ h.kept p, h.files.lock file = some p
  names : ∀ p, ∀ file ∈ h.kept p, h.files.path = some file

variable {h h' : Handles}

theorem exclusive_start : Exclusive start where
  files := exclusive_init
  owner _ _ hfile := absurd hfile List.not_mem_nil
  names _ _ hfile := absurd hfile List.not_mem_nil

theorem Exclusive.begin (hs : Exclusive h) {c : Call} (ht : LockFile.begin h.files p c = some t) :
    Exclusive ⟨t, h.kept⟩ := by
  have hsame : t.lock = h.files.lock ∧ t.path = h.files.path := by
    unfold LockFile.begin at ht
    split at ht <;> cases ht <;> exact ⟨rfl, rfl⟩
  refine ⟨hs.files.begin ht, fun q i hi => ?_, fun q i hi => ?_⟩
  · rw [hsame.1]
    exact hs.owner q i hi
  · rw [hsame.2]
    exact hs.names q i hi

theorem Exclusive.next (hs : Exclusive h) {ok : Bool} (hok : h.sound (.own (.sys p ok)) = true)
    (ht : LockFile.next h.files p ok = some t) : Exclusive ⟨t, h.kept⟩ := by
  rw [sound, Bool.and_eq_true] at hok
  obtain ⟨hnamed, hspares⟩ := hok
  refine ⟨hs.files.next hnamed ht, fun q i hi => ?_, fun q i hi => ?_⟩
  · refine next_lock ht (hs.owner q i hi) fun hq => ?_
    subst hq
    constructor
    · intro hph
      rw [hph] at hspares
      exact of_decide_eq_true hspares hi
    · intro pid hph
      rw [hph] at hspares
      exact of_decide_eq_true hspares hi
  · refine next_path ht (hs.names q i hi) fun j hph => ?_
    -- the path is removed by its owner, which is the process that keeps the file
    have hj := hs.files.names p j (by rw [hph]; rfl)
    obtain rfl : j = i := Option.some_inj.mp (hj.symm.trans (hs.names q i hi))
    have howner := hs.files.owner p j (by rw [hph]; rfl)
    obtain rfl : p = q := Option.some_inj.mp (howner.symm.trans (hs.owner q j hi))
    rw [hph] at hspares
    cases ok with
    | false => rfl
    | true => exact absurd hi (of_decide_eq_true (by simpa using hspares))

theorem Exclusive.exit (hs : Exclusive h) :
    Exclusive ⟨(h.files.dropLocks p).goto p .exited, Function.update h.kept p []⟩ := by
  have hother {q : Pid} {i : Inode} (hi : i ∈ Function.update h.kept p [] q) : q ≠ p ∧ i ∈ h.kept q := by
    by_cases hq : q = p
    · subst hq
      rw [Function.update_self] at hi
      exact absurd hi List.not_mem_nil
    · rw [Function.update_of_ne hq] at hi
      exact ⟨hq, hi⟩
  refine ⟨hs.files.goto_exit, fun q i hi => ?_, fun q i hi => ?_⟩
  · obtain ⟨hq, hi⟩ := hother hi
    have howner := hs.owner q i hi
    simp only [State.goto_lock, State.dropLocks, howner]
    rw [if_neg fun hp => hq (Option.some.inj hp)]
  · exact hs.names q i (hother hi).2

theorem Exclusive.keep (hs : Exclusive h) (hph : h.files.phase p = .held file) :
    Exclusive ⟨h.files.goto p .idle, Function.update h.kept p (file :: h.kept p)⟩ := by
  have hmem {q : Pid} {i : Inode} (hi : i ∈ Function.update h.kept p (file :: h.kept p) q) :
      i ∈ h.kept q ∨ q = p ∧ i = file := by
    by_cases hq : q = p
    · subst hq
      rw [Function.update_self, List.mem_cons] at hi
      exact hi.symm.imp_right fun hi => ⟨rfl, hi⟩
    · rw [Function.update_of_ne hq] at hi
      exact .inl hi
  refine ⟨hs.files.goto_unlocked rfl, fun q i hi => ?_, fun q i hi => ?_⟩
  · rcases hmem hi with hi | ⟨rfl, rfl⟩
    · exact hs.owner q i hi
    · exact hs.files.owner q i (by rw [hph]; rfl)
  · rcases hmem hi with hi | ⟨rfl, rfl⟩
    · exact hs.names q i hi
    · exact hs.files.names q i (by rw [hph]; rfl)

theorem Exclusive.resume (hs : Exclusive h) (hkept : file ∈ h.kept p) :
    Exclusive ⟨h.files.goto p (.held file), Function.update h.kept p ((h.kept p).erase file)⟩ := by
  have hmem {q : Pid} {i : Inode} (hi : i ∈ Function.update h.kept p ((h.kept p).erase file) q) :
      i ∈ h.kept q := by
    by_cases hq : q = p
    · subst hq
      rw [Function.update_self] at hi
      exact List.mem_of_mem_erase hi
    · rwa [Function.update_of_ne hq] at hi
  refine ⟨?_, fun q i hi => hs.owner q i (hmem hi), fun q i hi => hs.names q i (hmem hi)⟩
  refine hs.files.goto_frame rfl rfl rfl (fun i hi => ?_) (fun i hi => ?_)
  · obtain rfl : file = i := Option.some_inj.mp hi
    exact hs.owner p file hkept
  · obtain rfl : file = i := Option.some_inj.mp hi
    exact hs.names p file hkept

theorem Exclusive.step (hs : Exclusive h) {m : Move} (hok : h.sound m = true)
    (ht : h.step m = some h') : Exclusive h' := by
  cases m with
  | own a =>
    cases a with
    | call p c =>
      obtain ⟨files, hfiles, rfl⟩ := Option.map_eq_some_iff.mp ht
      exact hs.begin hfiles
    | sys p ok =>
      obtain ⟨files, hfiles, rfl⟩ := Option.map_eq_some_iff.mp ht
      exact hs.next hok hfiles
    | exit p =>
      obtain ⟨files, hfiles, rfl⟩ := Option.map_eq_some_iff.mp ht
      rw [LockFile.step, Option.ite_none_left_eq_some] at hfiles
      obtain rfl := Option.some.inj hfiles.2
      exact hs.exit
  | keep p =>
    rw [Handles.step] at ht
    split at ht
    · cases ht
      exact hs.keep ‹_›
    · cases ht
  | resume p file =>
    rw [Handles.step] at ht
    split_ifs at ht with hkept
    cases ht
    exact hs.resume hkept.2

theorem Exclusive.named_of_holds (hs : Exclusive h) (hp : h.Holds p) :
    ∃ file, h.files.path = some file ∧ h.files.lock file = some p := by
  rcases hp with hp | hp
  · obtain ⟨file, hnamed⟩ := Phase.exists_named_of_holds hp
    exact ⟨file, hs.files.names p file hnamed, hs.files.owner p file (Phase.locked_of_named hnamed)⟩
  · obtain ⟨file, hkept⟩ := List.exists_mem_of_ne_nil _ hp
    exact ⟨file, hs.names p file hkept, hs.owner p file hkept⟩

end Handles

/-- As long as every acquire locks the inode that the path names at that moment, and no process takes
away the lock or the path of a file whose lock it keeps, no two processes hold the lock at once. -/
theorem mutual_exclusion {h : Handles}
    (hreach : ReachableBy Handles.step (fun h m => h.sound m) Handles.start h)
    (hp : h.Holds p) (hq : h.Holds q) : p = q := by
  have hexclusive : h.Exclusive :=
    invariant_of_meets (fun _ _ _ hi hok ht => hi.step hok ht) Handles.exclusive_start hreach
  obtain ⟨file, hpath, howner⟩ := hexclusive.named_of_holds hp
  obtain ⟨file', hpath', howner'⟩ := hexclusive.named_of_holds hq
  obtain rfl : file = file' := Option.some_inj.mp (hpath.symm.trans hpath')
  exact Option.some_inj.mp (howner.symm.trans howner')

theorem mutual_exclusion_contended :
    ∃ h, ReachableBy Handles.step (fun h m => h.sound m) Handles.start h ∧ h.files.phase 2 = .idle ∧
      h.kept 1 = [0] ∧ ∀ q, h.Holds q → 1 = q := by
  let moves : List Move :=
    [.own (.call 1 .acquire), .own (.call 2 .acquire), .own (.sys 1 true), .own (.sys 2 true),
      .own (.sys 1 true), .own (.sys 2 true), .own (.sys 1 true), .own (.sys 2 true), .own (.sys 1 true),
      .keep 1, .own (.call 1 .cleanStale), .own (.sys 1 true), .own (.sys 1 false), .own (.sys 1 false)]
  have hmeets : Meets Handles.step (fun h m => h.sound m) Handles.start moves := by decide
  have hstate : (run Handles.step Handles.start moves).map (fun h => (h.files.phase 2, h.kept 1)) =
      some (.idle, [0]) := by decide
  obtain ⟨h, hrun, hstate⟩ := Option.map_eq_some_iff.mp hstate
  obtain ⟨hidle, hkept⟩ := Prod.mk.inj hstate
  have hreach : ReachableBy Handles.step (fun h m => h.sound m) Handles.start h := ⟨moves, hmeets, hrun⟩
  refine ⟨h, hreach, hidle, hkept, fun q hq => mutual_exclusion hreach (.inr ?_) hq⟩
  rw [hkept]
  exact List.cons_ne_nil _ _

/-- Process 2 opens the file of process 1, locks it after process 1 has removed it, and holds it
beside process 3, which creates and locks the next file. And a process that holds the lock loses it
by the look of `clean_stale_mcp_lock` at the file, so that the next one gets it too. -/
theorem two_holders :
    (∃ h, Reachable Handles.step Handles.start h ∧ h.files.phase 2 = .held 0 ∧ h.files.phase 3 = .held 1) ∧
    ∃ h, Reachable Handles.step Handles.start h ∧ h.kept 1 = [0] ∧ h.files.phase 2 = .held 0 := by
  constructor
  · let moves : List Move :=
      [.own (.call 1 .acquire), .own (.sys 1 true), .own (.sys 1 true), .own (.sys 1 true), .own (.sys 1 true),
        .own (.call 2 .acquire), .own (.sys 2 true),
        .own (.call 1 .release), .own (.sys 1 true), .own (.sys 1 true), .own (.sys 1 true),
        .own (.sys 2 true), .own (.sys 2 true), .own (.sys 2 true),
        .own (.call 3 .acquire), .own (.sys 3 true), .own (.sys 3 true), .own (.sys 3 true), .own (.sys 3 true)]
    have hphase : (run Handles.step Handles.start moves).map (fun h => (h.files.phase 2, h.files.phase 3)) =
        some (.held 0, .held 1) := by decide
    obtain ⟨h, hrun, hstate⟩ := Option.map_eq_some_iff.mp hphase
    exact ⟨h, ⟨moves, hrun⟩, congrArg Prod.fst hstate, congrArg Prod.snd hstate⟩
  · let moves : List Move :=
      [.own (.call 1 .acquire), .own (.sys 1 true), .own (.sys 1 true), .own (.sys 1 true), .own (.sys 1 true),
        .keep 1, .own (.call 1 .cleanStale), .own (.sys 1 true), .own (.sys 1 true), .own (.sys 1 true),
        .own (.sys 1 true),
        .own (.call 2 .acquire), .own (.sys 2 true), .own (.sys 2 true), .own (.sys 2 true), .own (.sys 2 true)]
    have hstate : (run Handles.step Handles.start moves).map (fun h => (h.kept 1, h.files.phase 2)) =
        some ([0], .held 0) := by decide
    obtain ⟨h, hrun, hstate⟩ := Option.map_eq_some_iff.mp hstate
    exact ⟨h, ⟨moves, hrun⟩, congrArg Prod.fst hstate, congrArg Prod.snd hstate⟩

end IdaMcp.LockFile
