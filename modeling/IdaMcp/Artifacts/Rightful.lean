import IdaMcp.Artifacts.Step

namespace IdaMcp.Artifacts

open Foundation Pool

/-- The open has made or rewritten the file since its dispatch, and it is not the work of a call that
was over by then. -/
def Removal.Rightful (r : Removal) : Prop :=
  (r.dispatch.files r.path = none ∨ r.dispatch.files r.path ≠ some r.identity) ∧
    ∀ t, r.author = some t → t ∉ r.dispatch.answered

/-- The cleanup of an open would leave every artifact alone as the open is sent. -/
def upToDate (cfg : WorkerPoolConfig) (s : State) : Action → Bool
  | .pool a =>
    match effect cfg s.pool a with
    | some (_, .publish t) => (s.artifacts t).all fun cleanup =>
        cleanup.artifacts.all (!touchedByThisCall s.files ·)
    | _ => true
  | _ => true

variable {cfg : WorkerPoolConfig} {home : Option String} {s s' : State} {a : Action} {w : WorkerId}
  {t : TaskId} {o : PendingArtifacts}

/-- What holds from the dispatch of an open on until its cleanup is over. -/
structure Owns (s : State) (o : PendingArtifacts) : Prop where
  answered : o.dispatch.answered ⊆ s.answered
  current : ∀ artifact ∈ o.cleanup.artifacts, Current o.dispatch.files artifact
  changed : ∀ path, s.files path = o.dispatch.files path ∨
    ∀ t, s.author path = some t → t ∉ o.dispatch.answered

namespace Owns

theorem of_files (h : Owns s o) (hfiles : s'.files = s.files) (hauthor : s'.author = s.author)
    (hanswered : s.answered ⊆ s'.answered) : Owns s' o where
  answered := List.Subset.trans h.answered hanswered
  current := h.current
  changed path := by
    rw [hfiles, hauthor]
    exact h.changed path

theorem write (h : Owns s o) {author : Option TaskId} (hauthor : ∀ t, author = some t → t ∉ s.answered)
    (path : Path) (identity : Option Identity) : Owns (s.write author path identity) o where
  answered := h.answered
  current := h.current
  changed p := by
    by_cases hp : p = path
    · right
      intro t ht hmem
      rw [hp, (s.write_self author path identity).2] at ht
      exact hauthor t ht (h.answered hmem)
    · obtain ⟨hfiles, hauthor⟩ := s.write_of_ne author identity hp
      rw [hfiles, hauthor]
      exact h.changed p

theorem rest (h : Owns s o) {artifact : ArtifactSnapshot} {rest : List ArtifactSnapshot}
    (hcons : o.cleanup.artifacts = artifact :: rest) :
    Owns s { o with cleanup := { o.cleanup with artifacts := rest } } where
  answered := h.answered
  current x hx := h.current x (by rw [hcons]; exact List.mem_cons_of_mem _ hx)
  changed := h.changed

theorem rightful (h : Owns s o) {artifact : ArtifactSnapshot} {now : Identity}
    (hmem : artifact ∈ o.cleanup.artifacts) (hnow : s.files artifact.path = some now)
    (htouched : touchedByThisCall s.files artifact = true) :
    Removal.Rightful ⟨o.dispatch, artifact.path, now, s.author artifact.path⟩ := by
  have hbefore : s.files artifact.path ≠ artifact.before := (touchedByThisCall_iff.mp htouched).2
  have hchanged : o.dispatch.files artifact.path ≠ some now := by
    rcases h.current artifact hmem with hnone | hsame
    · simp [hnone]
    · rw [hsame, ← hnow]
      exact hbefore.symm
  refine ⟨.inr hchanged, ?_⟩
  rcases h.changed artifact.path with hsame | hauthor
  · rw [← hsame] at hchanged
    exact absurd hnow hchanged
  · exact hauthor

end Owns

structure Sound (s : State) : Prop where
  fresh : s.pool.Fresh
  asked : Asked s.pool s.answered
  lost : ∀ o ∈ s.losses, Owns s o
  pending : ∀ w o, s.pending w = some o → Owns s o
  rightful : ∀ r ∈ s.removed, r.Rightful

namespace Sound

theorem setPending (h : Sound s) {p : Option PendingArtifacts} (hp : ∀ o, p = some o → Owns s o)
    (w : WorkerId) : Sound (s.setPending w p) where
  fresh := h.fresh
  asked := h.asked
  lost o ho := (h.lost o ho).of_files rfl rfl (List.Subset.refl _)
  pending w' o ho := by
    have howns : Owns s o := by
      rw [s.pending_setPending] at ho
      split_ifs at ho with hw
      · exact hp o ho
      · exact h.pending w' o ho
    exact howns.of_files rfl rfl (List.Subset.refl _)
  rightful := h.rightful

theorem published (h : ((s.artifacts t).all fun cleanup =>
      cleanup.artifacts.all (!touchedByThisCall s.files ·)) = true) :
    ∀ o, (s.artifacts t).map (fun cleanup => ⟨s.dispatchOf t, cleanup⟩) = some o → Owns s o := by
  intro o ho
  obtain ⟨cleanup, hcleanup, rfl⟩ := Option.map_eq_some_iff.mp ho
  rw [hcleanup, Option.all_some, List.all_eq_true] at h
  constructor
  · exact List.Subset.refl _
  · intro artifact hmem
    have hclean : touchedByThisCall s.files artifact = false := by simpa using h artifact hmem
    exact current_iff.mpr hclean
  · exact fun path => .inl rfl

theorem apply (h : Sound s) {e : Effect} (hdate : ∀ t, e = .publish t → ((s.artifacts t).all
    fun cleanup => cleanup.artifacts.all (!touchedByThisCall s.files ·)) = true) :
    Sound (s.apply w e) := by
  cases e with
  | publish t => exact h.setPending (published (hdate t rfl)) w
  | clear => exact h.setPending (fun o ho => by cases ho) w
  | take =>
    have hcleared : Sound (s.setPending w none) := h.setPending (fun o ho => by cases ho) w
    refine ⟨h.fresh, h.asked, ?_, ?_, h.rightful⟩
    · intro o ho
      have howns : Owns s o := by
        rcases List.mem_append.mp ho with hold | hnew
        · exact h.lost o hold
        · exact h.pending w o (Option.mem_toList.mp hnew)
      exact howns.of_files rfl rfl (List.Subset.refl _)
    · intro w' o ho
      exact (hcleared.pending w' o ho).of_files rfl rfl (List.Subset.refl _)

theorem write (h : Sound s) {author : Option TaskId} (hauthor : ∀ t, author = some t → t ∉ s.answered)
    (path : Path) (identity : Option Identity) : Sound (s.write author path identity) where
  fresh := h.fresh
  asked := h.asked
  lost o ho := (h.lost o ho).write hauthor path identity
  pending w o ho := (h.pending w o ho).write hauthor path identity
  rightful := h.rightful

theorem advance (h : Sound s) {pool : Pool.State} {answered : List TaskId} (hfresh : pool.Fresh)
    (hasked : Asked pool answered) (hanswered : s.answered ⊆ answered)
    (artifacts : TaskId → Option RawOpenArtifactCleanup) :
    Sound { s with pool, answered, artifacts } where
  fresh := hfresh
  asked := hasked
  lost o ho := (h.lost o ho).of_files rfl rfl hanswered
  pending w o ho := (h.pending w o ho).of_files rfl rfl hanswered
  rightful := h.rightful

theorem setLoss (h : Sound s) (ho : Owns s o) (i : ℕ) : Sound (s.setLoss i o) where
  fresh := h.fresh
  asked := h.asked
  lost o' ho' := by
    have howns : Owns s o' := by
      rcases List.mem_or_eq_of_mem_set ho' with hold | rfl
      · exact h.lost o' hold
      · exact ho
    exact howns.of_files rfl rfl (List.Subset.refl _)
  pending w o ho := (h.pending w o ho).of_files rfl rfl (List.Subset.refl _)
  rightful := h.rightful

theorem dropLoss (h : Sound s) (i : ℕ) : Sound (s.dropLoss i) where
  fresh := h.fresh
  asked := h.asked
  lost o ho := (h.lost o (List.mem_of_mem_eraseIdx ho)).of_files rfl rfl (List.Subset.refl _)
  pending w o ho := (h.pending w o ho).of_files rfl rfl (List.Subset.refl _)
  rightful := h.rightful

theorem remove (h : Sound s) {path : Path} {now : Identity}
    (hr : Removal.Rightful ⟨o.dispatch, path, now, s.author path⟩) :
    Sound (s.remove o.dispatch path now) := by
  have hwrite : Sound (s.write none path none) := h.write (fun t ht => by cases ht) path none
  refine ⟨hwrite.fresh, hwrite.asked, ?_, ?_, ?_⟩
  · exact fun o ho => (hwrite.lost o ho).of_files rfl rfl (List.Subset.refl _)
  · exact fun w o ho => (hwrite.pending w o ho).of_files rfl rfl (List.Subset.refl _)
  · intro r hmem
    rcases List.mem_append.mp hmem with hold | hnew
    · exact h.rightful r hold
    · obtain rfl := List.mem_singleton.mp hnew
      exact hr

theorem clean (h : Sound s) {i : ℕ} (ho : s.losses[i]? = some o) (ok : Bool) :
    Sound (Artifacts.clean s i o ok) := by
  have howns : Owns s o := h.lost o (List.mem_of_getElem? ho)
  rw [Artifacts.clean]
  split
  · exact h.dropLoss i
  · next artifact rest hcons =>
    have hmem : artifact ∈ o.cleanup.artifacts := by
      rw [hcons]
      exact List.mem_cons_self
    rw [removeArtifact]
    split
    · next now hnow =>
      split_ifs with hremoves
      · have htouched := (Bool.and_eq_true_iff.mp hremoves).1
        have hwrite : Owns (s.write none artifact.path none) o :=
          howns.write (fun t ht => by cases ht) artifact.path none
        have hkept : Owns (s.remove o.dispatch artifact.path now) o :=
          hwrite.of_files rfl rfl (List.Subset.refl _)
        exact (h.remove (howns.rightful hmem hnow htouched)).setLoss (hkept.rest hcons) i
      · exact h.setLoss (howns.rest hcons) i
    · exact h.setLoss (howns.rest hcons) i

theorem dated {a : Pool.Action} {e : Effect} (hdate : upToDate cfg s (.pool a) = true)
    (heffect : effect cfg s.pool a = some (w, e)) (t : TaskId) (he : e = .publish t) :
    ((s.artifacts t).all fun cleanup =>
      cleanup.artifacts.all (!touchedByThisCall s.files ·)) = true := by
  subst he
  simpa [upToDate, heffect] using hdate

theorem subset_answeredBy (answered : List TaskId) (a : Pool.Action) :
    answered ⊆ answeredBy answered a := by
  cases a with
  | childAnswer => exact List.subset_cons_self _ _
  | _ => exact List.Subset.refl _

theorem step (h : Sound s) (hdate : upToDate cfg s a = true)
    (hstep : Artifacts.step cfg home s a = some s') : Sound s' := by
  cases a with
  | openIdb handle request =>
    obtain ⟨pool, hpool, rfl⟩ := Option.map_eq_some_iff.mp hstep
    exact h.advance (fresh_transition h.fresh (transition_of_step hpool)) (h.asked.step h.fresh hpool)
      (List.Subset.refl _) _
  | pool a =>
    rw [Artifacts.step] at hstep
    split_ifs at hstep
    obtain ⟨pool, hpool, rfl⟩ := Option.map_eq_some_iff.mp hstep
    have hfresh : pool.Fresh := fresh_transition h.fresh (transition_of_step hpool)
    have hasked := h.asked.step h.fresh hpool
    have hsubset := subset_answeredBy s.answered a
    cases heffect : effect cfg s.pool a with
    | none => exact h.advance hfresh hasked hsubset s.artifacts
    | some e =>
      obtain ⟨w, e⟩ := e
      have happlied : Sound (s.apply w e) := h.apply (dated hdate heffect)
      cases e with
      | publish | clear | take => exact happlied.advance hfresh hasked hsubset s.artifacts
  | childWrites w request path identity =>
    rw [Artifacts.step] at hstep
    split_ifs at hstep with hrequest
    obtain rfl := Option.some.inj hstep
    apply h.write
    intro t ht
    obtain rfl := Option.some.inj ht
    exact h.asked.waits w request hrequest
  | otherWrites path identity =>
    obtain rfl := Option.some.inj hstep
    exact h.write (fun t ht => by cases ht) path identity
  | clean i ok =>
    obtain ⟨o, ho, rfl⟩ := Option.map_eq_some_iff.mp hstep
    exact h.clean ho ok
  | skip i =>
    obtain rfl := Option.some.inj hstep
    exact h.dropLoss i

end Sound

theorem sound_initial (files : Files) : Sound (initial cfg files) where
  fresh := fresh_warmed
  asked := asked_warmed
  lost o ho := by cases ho
  pending w o ho := by cases ho
  rightful r hr := by cases hr

theorem times_out {p p' : Pool.State} {h : PooledWorkerHandle} {tool : String} {d : Bool}
    (ht : p.task t = some ⟨.callAdmission h tool true, d⟩)
    (hadmitted : admissionError p h tool = none) (hstep : Pool.step cfg p (.run t .proceed) = some p')
    (secs : UInt64) : ∃ q q', Pool.step cfg p' (.run t (.timedOut secs)) = some q ∧
      Pool.step cfg q (.run t .proceed) = some q' ∧
      effect cfg q (.run t .proceed) = some (h.workerId, .take) := by
  have hleased := admissionError_eq_none.mp hadmitted
  simp only [Pool.step, ht, next, callAdmission, hadmitted] at hstep
  split_ifs at hstep
  obtain rfl := Option.some.inj hstep
  set sent : Pool.State := send (p.setCallLock h.workerId (some t)) t h tool
  have ht' : (sent.goto t (.callAwait h tool true none)).task t = some ⟨.callAwait h tool true none, d⟩ :=
    task_goto_self ht _
  set q : Pool.State := retireCall (sent.goto t (.callAwait h tool true none)) t h
    (operationTimeoutError tool secs h.workerId)
  have htq : q.task t = some ⟨.takeDead h.workerId (some h.leaseId) true
      (.settleCall h (.error (operationTimeoutError tool secs h.workerId))), d⟩ := task_goto_self ht' _
  have hstate : q.stateOf h.workerId = .leased h.sessionId h.leaseId := by
    rw [← hleased]
    exact ((p.setCallLock _ _).stateOf_setRequests _ _ _).trans (p.stateOf_setCallLock _ _ _)
  refine ⟨q, takeDead q t h.workerId (some h.leaseId) true
    (.settleCall h (.error (operationTimeoutError tool secs h.workerId))), ?_, ?_, ?_⟩
  · simp only [Pool.step, ht', next, callAwait, Option.isNone_none, if_true]
    rfl
  · simp only [Pool.step, htq, next]
  · simp [effect, htq, effectAt, hstate, ChildState.belongsToLease]

theorem clean_stale {i : ℕ} (ho : s.losses[i]? = some o) (hfiles : s.files = o.dispatch.files)
    (hstale : o.cleanup.artifacts.any (touchedByThisCall s.files) = true) :
    ∃ u, Reachable (step cfg home) s u ∧ ∃ r ∈ u.removed, ¬r.Rightful := by
  obtain ⟨artifacts, hartifacts⟩ : ∃ artifacts, o.cleanup.artifacts = artifacts := ⟨_, rfl⟩
  induction artifacts generalizing s o with
  | nil => simp [hartifacts] at hstale
  | cons artifact rest ih =>
    have hlt : i < s.losses.length := (List.getElem?_eq_some_iff.mp ho).1
    have hstep : step cfg home s (.clean i true) = some (clean s i o true) := by simp [step, ho]
    by_cases htouched : touchedByThisCall s.files artifact = true
    · obtain ⟨now, hnow⟩ := Option.ne_none_iff_exists'.mp (touchedByThisCall_iff.mp htouched).1
      refine ⟨_, ⟨[.clean i true], by rw [run, hstep]; rfl⟩,
        ⟨o.dispatch, artifact.path, now, s.author artifact.path⟩, ?_, ?_⟩
      · simp [clean, hartifacts, removeArtifact, hnow, htouched, State.remove, State.setLoss]
      · rintro ⟨hnone | hne, -⟩
        · rw [← hfiles, hnow] at hnone
          cases hnone
        · exact hne (by rw [← hfiles, hnow])
    · have hkept : removeArtifact s o.dispatch artifact true = s := by
        rw [removeArtifact]
        split
        · rw [if_neg (by simp [htouched])]
        · rfl
      have hclean : clean s i o true =
          s.setLoss i { o with cleanup := { o.cleanup with artifacts := rest } } := by
        rw [clean, hartifacts]
        simp only [hkept]
      obtain ⟨u, ⟨as, hrun⟩, hwrong⟩ :=
        ih (s := s.setLoss i { o with cleanup := { o.cleanup with artifacts := rest } })
          (o := { o with cleanup := { o.cleanup with artifacts := rest } })
          (by simp [State.setLoss, hlt]) hfiles
          (by simpa [State.setLoss, hartifacts, htouched] using hstale) rfl
      refine ⟨u, ⟨.clean i true :: as, ?_⟩, hwrong⟩
      rw [run, hstep, hclean]
      exact hrun

theorem effectAt_publish {p : Pool.State} {position : Position} {t' : TaskId}
    (h : effectAt p t position = some (w, .publish t')) : ∃ handle tool,
      position = .callAdmission handle tool true ∧ admissionError p handle tool = none ∧
        handle.workerId = w ∧ t' = t := by
  cases position with
  | callAdmission handle tool tracksOpen =>
    cases tracksOpen with
    | false => cases h
    | true =>
      simp only [effectAt, Option.ite_none_right_eq_some] at h
      obtain ⟨hadmitted, h⟩ := h
      obtain ⟨rfl, hpublish⟩ := Prod.mk.inj (Option.some.inj h)
      exact ⟨handle, tool, rfl, by simpa using hadmitted, rfl, (Effect.publish.inj hpublish).symm⟩
  | callSettle | releaseReset | takeDead =>
    simp only [effectAt] at h
    split_ifs at h
    cases h
  | _ => cases h

theorem effect_publish {a : Pool.Action} (h : effect cfg s.pool a = some (w, .publish t)) :
    ∃ handle tool d, a = .run t .proceed ∧
      s.pool.task t = some ⟨.callAdmission handle tool true, d⟩ ∧
      admissionError s.pool handle tool = none ∧ handle.workerId = w := by
  unfold effect at h
  split at h
  · next t' =>
    obtain ⟨⟨position, d⟩, ht, h⟩ := Option.bind_eq_some_iff.mp h
    rcases Option.or_eq_some_iff.mp h with h | ⟨-, h⟩
    · obtain ⟨handle, tool, rfl, hadmitted, hw, rfl⟩ := effectAt_publish h
      exact ⟨handle, tool, d, rfl, ht, hadmitted, hw⟩
    · obtain ⟨w', -, h⟩ := Option.map_eq_some_iff.mp h
      cases h
  · cases h

/-- Whenever an open is sent with a stale snapshot, the loss of its worker can cost a file that the
open has not touched. -/
theorem stale_open_misremoves {a : Pool.Action} (hstale : upToDate cfg s (.pool a) = false)
    (hstep : step cfg home s (.pool a) = some s') :
    ∃ u, Reachable (step cfg home) s' u ∧ ∃ r ∈ u.removed, ¬r.Rightful := by
  obtain ⟨w, t, cleanup, heffect, hcleanup, hany⟩ : ∃ w t cleanup,
      effect cfg s.pool a = some (w, .publish t) ∧ s.artifacts t = some cleanup ∧
        cleanup.artifacts.any (touchedByThisCall s.files) = true := by
    rw [upToDate] at hstale
    split at hstale
    · next w t heffect =>
      obtain ⟨cleanup, hcleanup⟩ : ∃ cleanup, s.artifacts t = some cleanup := by
        rw [← Option.ne_none_iff_exists']
        intro hnone
        simp [hnone] at hstale
      refine ⟨w, t, cleanup, heffect, hcleanup, ?_⟩
      simpa [hcleanup] using hstale
    · cases hstale
  obtain ⟨handle, tool, d, rfl, ht, hadmitted, rfl⟩ := effect_publish heffect
  simp only [step, tracksOpen, Bool.false_eq_true, if_false, heffect] at hstep
  obtain ⟨p', hp', rfl⟩ := Option.map_eq_some_iff.mp hstep
  obtain ⟨q, q', hq, hq', htake⟩ := times_out ht hadmitted hp' 0
  set sent : State := { s.apply handle.workerId (.publish t) with
    pool := p', answered := answeredBy s.answered (.run t .proceed) } with hsent
  have hpending : sent.pending handle.workerId = some ⟨s.dispatchOf t, cleanup⟩ := by
    rw [hsent]
    simp [State.apply, State.setPending, hcleanup]
  have htimeout : step cfg home sent (.pool (.run t (.timedOut 0))) = some { sent with pool := q } := by
    simp only [step, tracksOpen, Bool.false_eq_true, if_false]
    rw [show sent.pool = p' from rfl, hq]
    rfl
  have hlost : step cfg home { sent with pool := q } (.pool (.run t .proceed)) =
      some { ({ sent with pool := q } : State).apply handle.workerId .take with pool := q' } := by
    simp only [step, tracksOpen, Bool.false_eq_true, if_false, hq', htake]
    rfl
  set lost : State := { ({ sent with pool := q } : State).apply handle.workerId .take with pool := q' }
  have hlosses : lost.losses[s.losses.length]? = some ⟨s.dispatchOf t, cleanup⟩ := by
    have happend : lost.losses = s.losses ++ (sent.pending handle.workerId).toList := rfl
    rw [happend, hpending]
    simp
  obtain ⟨u, ⟨as, hrun⟩, hwrong⟩ : ∃ u, Reachable (step cfg home) lost u ∧
      ∃ r ∈ u.removed, ¬r.Rightful := clean_stale hlosses rfl hany
  refine ⟨u, ⟨.pool (.run t (.timedOut 0)) :: .pool (.run t .proceed) :: as, ?_⟩, hwrong⟩
  rw [run_cons_eq_some]
  refine ⟨_, htimeout, ?_⟩
  rw [run_cons_eq_some]
  exact ⟨lost, hlost, hrun⟩

/-- In a run in which no open is sent with a stale snapshot of its artifacts, the cleanup after the
loss of a worker removes only what the open has made or rewritten. -/
theorem retired_open_removes_its_own {files : Files} (h : ReachableBy (step cfg home)
      (fun s a => upToDate cfg s a = true) (initial cfg files) s) {r : Removal}
    (hr : r ∈ s.removed) : r.Rightful := by
  have hsound : Sound s := by
    refine invariant_of_meets (I := Sound) ?_ (sound_initial files) h
    exact fun s a s' hs hdate hstep => hs.step hdate hstep
  exact hsound.rightful r hr

def leased : List Action :=
  [.start (.lease 0), .run 0 .proceed, .run 0 .proceed, .run 0 .proceed].map .pool ++
    ([.openIdb ⟨0, 0, 1, false⟩ ⟨"/tmp/a", none, false⟩, .pool (.run 1 .proceed)] : List Action)

theorem retired_open_removes_its_own_cancelled : ∃ s, ∃ r ∈ s.removed, r.path = "/tmp/a.id0" ∧
    r.Rightful ∧ ReachableBy (step ⟨1, 1, 5⟩ none) (fun s a => upToDate ⟨1, 1, 5⟩ s a = true)
      (initial ⟨1, 1, 5⟩ fun _ => none) s := by
  let ends : List Action := [.childWrites 0 ⟨1, 1, "open_idb"⟩ "/tmp/a.id0" (some ⟨7, some 1⟩),
    .pool (.run 1 .cancelled), .pool (.run 1 .proceed), .clean 0 true, .clean 0 true]
  let actions := leased ++ ends
  have hmeets : Meets (step ⟨1, 1, 5⟩ none) (fun s a => upToDate ⟨1, 1, 5⟩ s a = true)
      (initial ⟨1, 1, 5⟩ fun _ => none) actions := by decide +kernel
  have hremoved : (run (step ⟨1, 1, 5⟩ none) (initial ⟨1, 1, 5⟩ fun _ => none) actions).map
      (fun s => s.removed.map Removal.path) = some ["/tmp/a.id0"] := by decide +kernel
  obtain ⟨s, hs, hpaths⟩ := Option.map_eq_some_iff.mp hremoved
  obtain ⟨r, hr, hpath⟩ : ∃ r ∈ s.removed, r.path = "/tmp/a.id0" :=
    List.mem_map.mp (hpaths ▸ List.mem_singleton_self _)
  have hreach : ReachableBy (step ⟨1, 1, 5⟩ none) (fun s a => upToDate ⟨1, 1, 5⟩ s a = true)
      (initial ⟨1, 1, 5⟩ fun _ => none) s := ⟨actions, hmeets, hs⟩
  exact ⟨s, r, hr, hpath, retired_open_removes_its_own hreach hr, hreach⟩

/-- A second open of the input waits for the first one, which writes the database and ends. The
second one is cancelled as soon as it has been sent, and the database is gone. -/
theorem queued_open_removes_database : ∃ s, Reachable (step ⟨1, 1, 5⟩ none)
      (initial ⟨1, 1, 5⟩ fun _ => none) s ∧
    ∃ r ∈ s.removed, r.path = "/tmp/a.i64" ∧ r.dispatch.task = 2 ∧
      r.dispatch.files r.path = some r.identity ∧ r.author = some 1 ∧ 1 ∈ r.dispatch.answered := by
  let queued : List Action := [.openIdb ⟨0, 0, 1, false⟩ ⟨"/tmp/a", none, false⟩,
    .childWrites 0 ⟨1, 1, "open_idb"⟩ "/tmp/a.i64" (some ⟨9, some 1⟩),
    .pool (.childAnswer 0 ⟨1, 1, "open_idb"⟩ (.result (textReply "{}" false)) .opens),
    .pool (.run 1 .proceed), .pool (.run 1 .proceed), .pool (.run 2 .proceed),
    .pool (.run 2 .cancelled), .pool (.run 2 .proceed), .clean 0 true]
  let actions := leased ++ queued
  have hremoved : (run (step ⟨1, 1, 5⟩ none) (initial ⟨1, 1, 5⟩ fun _ => none) actions).map
      (fun s => s.removed.any fun r => r.path = "/tmp/a.i64" ∧ r.dispatch.task = 2 ∧
        r.dispatch.files r.path = some r.identity ∧ r.author = some 1 ∧ 1 ∈ r.dispatch.answered) =
      some true := by decide +kernel
  obtain ⟨s, hs, hany⟩ := Option.map_eq_some_iff.mp hremoved
  obtain ⟨r, hr, hfacts⟩ := List.any_eq_true.mp hany
  exact ⟨s, ⟨actions, hs⟩, r, hr, of_decide_eq_true hfacts⟩

end IdaMcp.Artifacts
