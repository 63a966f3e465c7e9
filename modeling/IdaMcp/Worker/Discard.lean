import IdaMcp.Worker.Shutdown

namespace IdaMcp.Worker

open Foundation

structure Quarantined (id : ℕ) (later : List Event) : Prop where
  saved : .closed id true ∉ later
  used : ∀ operation, .used id operation ∉ later
  handled : ∀ after request before, later = after ++ .handled request :: before →
    .closed id false ∈ before

/-- Every database in which a crash was caught is closed without saving before anything else is
done, and before the loop ends. -/
def Loop.CrashDiscarded (s : Loop) : Prop :=
  ∀ later id earlier, s.log = later ++ .crashed id :: earlier →
    Quarantined id later ∧ (s.running = false → .closed id false ∈ later)

/-- The channel is not closed between a caught crash and the next request. -/
def discards (s : Loop) : Loop.Action → Prop
  | .disconnect => s.crashedOperation = none ∨ s.idb = none
  | .receive _ _ => True

variable {id : ℕ} {later earlier events : List Event} {e : Event}

theorem quarantined_nil (id : ℕ) : Quarantined id [] := ⟨by simp, by simp, by simp⟩

theorem Quarantined.cons (h : Quarantined id later) (hsaved : e ≠ .closed id true)
    (hused : ∀ operation, e ≠ .used id operation)
    (hhandled : ∀ request, e = .handled request → .closed id false ∈ later) :
    Quarantined id (e :: later) := by
  refine ⟨?_, ?_, ?_⟩
  · intro hmem
    obtain heq | hmem := List.mem_cons.mp hmem
    · exact hsaved heq.symm
    · exact h.saved hmem
  · intro operation hmem
    obtain heq | hmem := List.mem_cons.mp hmem
    · exact hused operation heq.symm
    · exact h.used operation hmem
  · intro after request before heq
    cases after with
    | nil =>
      obtain ⟨he, rfl⟩ := List.cons.inj heq
      exact hhandled request he
    | cons e' after =>
      obtain ⟨rfl, rfl⟩ := List.cons.inj heq
      exact h.handled after request before rfl

theorem crashed_cons {log : List Event} (heq : e :: log = later ++ .crashed id :: earlier) :
    later = [] ∧ e = .crashed id ∨
      ∃ later', later = e :: later' ∧ log = later' ++ .crashed id :: earlier := by
  cases later with
  | nil => exact .inl ⟨rfl, (List.cons.inj heq).1⟩
  | cons e' later =>
    obtain ⟨rfl, rfl⟩ := List.cons.inj heq
    exact .inr ⟨later, rfl, rfl⟩

def Sealed (log : List Event) (live : ℕ → Prop) : Prop :=
  ∀ later id earlier, log = later ++ .crashed id :: earlier →
    Quarantined id later ∧ .closed id false ∈ later ∧ ¬live id

def About (live : ℕ → Prop) : Event → Prop
  | .opened _ _ => True
  | .closed id _ => live id
  | .used id _ => live id
  | .crashed _ => False
  | .handled _ => True

theorem Sealed.mono {log : List Event} {live live' : ℕ → Prop} (h : Sealed log live)
    (hlive : ∀ id, live' id → live id) : Sealed log live' := by
  intro later id earlier heq
  obtain ⟨hquarantined, hclosed, hid⟩ := h later id earlier heq
  exact ⟨hquarantined, hclosed, fun hid' => hid (hlive id hid')⟩

theorem Sealed.cons {log : List Event} {live : ℕ → Prop} (h : Sealed log live) (he : About live e) :
    Sealed (e :: log) live := by
  intro later id earlier heq
  obtain ⟨-, rfl⟩ | ⟨later, rfl, hlog⟩ := crashed_cons heq
  · exact he.elim
  · obtain ⟨hquarantined, hclosed, hid⟩ := h later id earlier hlog
    refine ⟨hquarantined.cons ?_ ?_ ?_, List.mem_cons_of_mem _ hclosed, hid⟩
    · rintro rfl
      exact hid he
    · rintro operation rfl
      exact hid he
    · intro request _
      exact hclosed

theorem Sealed.append {log : List Event} {live : ℕ → Prop} (h : Sealed log live)
    (he : ∀ e ∈ events, About live e) : Sealed (events ++ log) live := by
  induction events with
  | nil => exact h
  | cons e events ih =>
    exact (ih fun e' he' => he e' (List.mem_cons_of_mem _ he')).cons (he e List.mem_cons_self)

theorem Sealed.discard {log : List Event} {live : ℕ → Prop} (h : Sealed log live) (id : ℕ) :
    Sealed (.closed id false :: .crashed id :: log) fun i => live i ∧ i ≠ id := by
  intro later i earlier heq
  obtain ⟨-, hcrash⟩ | ⟨later, rfl, hlog⟩ := crashed_cons heq
  · cases hcrash
  · obtain ⟨rfl, hcrash⟩ | ⟨later, rfl, hrest⟩ := crashed_cons hlog
    · obtain rfl : id = i := Event.crashed.inj hcrash
      refine ⟨(quarantined_nil id).cons (by simp) (by simp) (by simp), List.mem_cons_self, ?_⟩
      exact fun hi => hi.2 rfl
    · obtain ⟨hquarantined, hclosed, hi⟩ := h later i earlier hrest
      refine ⟨(hquarantined.cons (by simp) (by simp) (by simp)).cons (by simp) (by simp) (by simp),
        by simp [hclosed], fun hlive => hi hlive.1⟩

namespace Loop

variable {s t : Loop} {v : Option Holding} {answers : Answers}

def Live (s : Loop) (id : ℕ) : Prop := s.nextIdb ≤ id ∨ ∃ db, s.idb = some db ∧ db.id = id

structure Crashes (s : Loop) : Prop where
  settled : s.crashedOperation = none ∨ s.idb = none → Sealed s.log s.Live
  pending : ∀ operation db, s.crashedOperation = some operation → s.idb = some db →
    s.running = true ∧ ∃ log, s.log = .crashed db.id :: log ∧ Sealed log s.Live

theorem Crashes.of_sealed (h : Sealed s.log s.Live)
    (hc : s.crashedOperation = none ∨ s.idb = none) : s.Crashes := by
  refine ⟨fun _ => h, ?_⟩
  intro operation db hoperation hdb
  obtain hc | hc := hc
  · simp [hc] at hoperation
  · simp [hc] at hdb

theorem Crashes.append (h : s.Crashes) (events : List Event)
    (hc : s.crashedOperation = none ∨ s.idb = none)
    (hlog : t.log = events ++ s.log) (hevents : ∀ e ∈ events, About s.Live e)
    (hlive : ∀ id, t.Live id → s.Live id) (hc' : t.crashedOperation = none ∨ t.idb = none) :
    t.Crashes := by
  apply Crashes.of_sealed _ hc'
  rw [hlog]
  exact ((h.settled hc).append hevents).mono hlive

theorem Crashes.crashDiscarded (h : s.Crashes) : s.CrashDiscarded := by
  intro later id earlier heq
  by_cases hc : s.crashedOperation = none ∨ s.idb = none
  · obtain ⟨hquarantined, hclosed, -⟩ := h.settled hc later id earlier heq
    exact ⟨hquarantined, fun _ => hclosed⟩
  · obtain ⟨operation, hoperation⟩ := Option.ne_none_iff_exists'.mp fun hnone => hc (.inl hnone)
    obtain ⟨db, hdb⟩ := Option.ne_none_iff_exists'.mp fun hnone => hc (.inr hnone)
    obtain ⟨hrun, log, hlog, hsealed⟩ := h.pending operation db hoperation hdb
    rw [hlog] at heq
    obtain ⟨rfl, -⟩ | ⟨later, rfl, hrest⟩ := crashed_cons heq
    · exact ⟨quarantined_nil id, fun hstopped => by simp [hrun] at hstopped⟩
    · obtain ⟨hquarantined, hclosed, -⟩ := hsealed later id earlier hrest
      exact ⟨hquarantined.cons (by simp) (by simp) (by simp),
        fun _ => List.mem_cons_of_mem _ hclosed⟩

theorem Crashes.emptied (h : s.Crashes) (hc : s.crashedOperation = none ∨ s.idb = none) :
    (s.emptied true).Crashes := by
  refine h.append _ hc rfl ?_ ?_ (.inr rfl)
  · intro e he
    cases hidb : s.idb with
    | none => simp [hidb] at he
    | some db =>
      obtain rfl : e = .closed db.id true := by simpa [hidb] using he
      exact .inr ⟨db, hidb, rfl⟩
  · rintro id (hid | ⟨db, ⟨⟩, -⟩)
    exact .inl hid

theorem Crashes.performed (h : s.Crashes) (operation : Operation) (answers : Answers)
    (hrun : s.running = true) (hc : s.crashedOperation = none) :
    (s.perform operation answers).Crashes := by
  obtain ⟨d, c, events, ht, hevents⟩ := perform_eq s operation answers
  generalize s.perform operation answers = t at ht
  have hidb : t.idb = s.idb := by rw [ht]
  have hlive : ∀ id, t.Live id → s.Live id := by
    intro id hid
    rw [ht] at hid
    exact hid
  cases hdb : s.idb with
  | none =>
    have hlog : t.log = [] ++ s.log := by
      obtain ⟨-, rfl⟩ | ⟨-, rfl⟩ := hevents <;> simp [ht, hdb]
    exact h.append _ (.inl hc) hlog (by simp) hlive (.inr (hidb.trans hdb))
  | some db =>
    have hused : Sealed (.used db.id operation :: s.log) t.Live :=
      ((h.settled (.inl hc)).cons (e := .used db.id operation) (.inr ⟨db, hdb, rfl⟩)).mono hlive
    obtain ⟨hc', rfl⟩ | ⟨hc', rfl⟩ := hevents
    · have hlog : t.log = .used db.id operation :: s.log := by simp [ht, hdb]
      refine .of_sealed (hlog ▸ hused) (.inl ?_)
      rw [ht]
      exact hc'.trans hc
    · have hlog : t.log = .crashed db.id :: .used db.id operation :: s.log := by simp [ht, hdb]
      have hcrashed : t.crashedOperation.isSome = true := by
        rw [ht]
        exact hc'
      refine ⟨?_, ?_⟩
      · rintro (hnone | hnone)
        · simp [hnone] at hcrashed
        · simp [hidb, hdb] at hnone
      · intro label db' _ hdb'
        obtain rfl : db = db' := Option.some.inj ((hidb.trans hdb).symm.trans hdb')
        refine ⟨?_, _, hlog, hused⟩
        rw [ht]
        exact hrun

theorem crashes_kept : Kept fun s => s.Coherent ∧ s.Crashes where
  holds h := h.1.1
  taken {s} request answers := by
    rintro ⟨hcoherent, h⟩
    refine ⟨coherent_kept.taken request answers hcoherent, ?_⟩
    obtain ⟨v, hv⟩ := hcoherent.1
    obtain ⟨hu, hc⟩ | ⟨d, hc, hu⟩ := dequeue_cases hv request answers <;> rw [hu]
    · exact h.append [.handled request] (.inl hc) rfl (by simp [About]) (fun _ hid => hid)
        (.inl hc)
    · cases hidb : s.idb with
      | none =>
        refine h.append [.handled request] (.inr hidb) ?_ (by simp [About]) ?_ (.inl rfl)
        · simp [emptied, record, hidb]
        · rintro id (hid | ⟨db, ⟨⟩, -⟩)
          exact .inl hid
      | some db =>
        obtain ⟨operation, hoperation⟩ := Option.isSome_iff_exists.mp hc
        obtain ⟨-, log, hlog, hsealed⟩ := h.pending operation db hoperation hidb
        refine .of_sealed ?_ (.inl rfl)
        have hid : db.id < s.nextIdb := by
          obtain ⟨v, rfl, hv⟩ := hv.of_some hidb
          exact (hcoherent.2.issued _ _ (hcoherent.2.current _ _ hidb hv.generation)).2
        have hdiscard := (hsealed.discard db.id).cons (e := .handled request) trivial
        simp only [record, emptied, hidb, hlog, Option.map_some, Option.toList_some,
          List.singleton_append]
        refine hdiscard.mono ?_
        rintro id (hlow | ⟨db', ⟨⟩, -⟩)
        refine ⟨.inl hlow, ?_⟩
        rintro rfl
        exact absurd hid (Nat.not_lt.mpr hlow)
  library l m := by
    rintro ⟨hcoherent, h⟩
    exact ⟨coherent_kept.library l m hcoherent, h.settled, h.pending⟩
  session d := by
    rintro ⟨hcoherent, h⟩
    exact ⟨coherent_kept.session d hcoherent, h.settled, h.pending⟩
  quiet := by
    rintro s t ⟨hcoherent, h⟩ hc hq
    refine ⟨coherent_kept.quiet hcoherent hc hq, ?_⟩
    obtain ⟨n, events, hn, hevents, rfl⟩ := hq
    refine h.append _ (.inl hc) rfl ?_ ?_ (.inl hc)
    · intro e he
      obtain ⟨id, saved, rfl, hlow, -⟩ := hevents e he
      exact .inl hlow
    · rintro id (hid | hdb)
      · exact .inl (hn.trans hid)
      · exact .inr hdb
  opening {s db} lock := by
    rintro ⟨hcoherent, h⟩ hc hnone hdb hsave
    refine ⟨coherent_kept.opening lock hcoherent hc hnone hdb hsave, ?_⟩
    refine h.append [.opened db.id (s.nextDatabaseGeneration + 1)] (.inl hc) rfl
      (by simp [About]) ?_ (.inl hc)
    rintro id (hid | ⟨db', ⟨⟩, rfl⟩)
    · have hlow : db.id + 1 ≤ id := hid
      exact .inl (by omega)
    · exact .inl hdb.ge
  answered := by
    rintro s db generation ⟨hcoherent, h⟩ hc hdb hgeneration
    refine ⟨coherent_kept.answered hcoherent hc hdb hgeneration, ?_⟩
    exact h.append [.opened db.id generation] (.inl hc) rfl (by simp [About])
      (fun _ hid => hid) (.inl hc)
  emptied := by
    rintro s ⟨hcoherent, h⟩ hc
    exact ⟨coherent_kept.emptied hcoherent hc, h.emptied (.inl hc)⟩
  performed {s} operation answers := by
    rintro ⟨hcoherent, h⟩ hrun hc
    exact ⟨coherent_kept.performed operation answers hcoherent hrun hc,
      h.performed operation answers hrun hc⟩
  finished := by
    rintro s ⟨hcoherent, h⟩ hc
    have hemptied := h.emptied (.inl hc)
    exact ⟨hcoherent.finished, .of_sealed (hemptied.settled (.inr rfl)) (.inl rfl)⟩

theorem Crashes.step {action : Action} (hcoherent : s.Coherent) (h : s.Crashes)
    (hok : discards s action) (hstep : step s action = some t) : t.Crashes := by
  unfold Loop.step at hstep
  split at hstep
  next hrun =>
    cases action with
    | receive request answers =>
      obtain rfl := Option.some.inj hstep
      exact (crashes_kept.turn request answers ⟨hcoherent, h⟩ hrun).2
    | disconnect =>
      obtain rfl := Option.some.inj hstep
      obtain ⟨v, hv⟩ := hcoherent.1
      rw [finish_eq hv]
      exact .of_sealed ((h.emptied hok).settled (.inr rfl)) (.inl rfl)
  · cases hstep

theorem disconnect_saves (hcoherent : s.Coherent) (h : s.Crashes) (hok : ¬discards s .disconnect) :
    ¬s.finish.CrashDiscarded := by
  obtain ⟨v, hv⟩ := hcoherent.1
  obtain ⟨hcrashed, hidb⟩ := not_or.mp hok
  obtain ⟨operation, hoperation⟩ := Option.ne_none_iff_exists'.mp hcrashed
  obtain ⟨db, hdb⟩ := Option.ne_none_iff_exists'.mp hidb
  obtain ⟨-, log, hlog, -⟩ := h.pending operation db hoperation hdb
  intro hdiscarded
  have hfinish : s.finish.log = [.closed db.id true] ++ .crashed db.id :: log := by
    rw [finish_eq hv]
    simp [emptied, hdb, hlog]
  exact (hdiscarded _ _ _ hfinish).1.saved List.mem_cons_self

theorem initial_crashes (libraryInitialized : Bool) (versionMismatch : Option String) :
    (initial libraryInitialized versionMismatch).Crashes := by
  apply Crashes.of_sealed _ (.inl rfl)
  intro later id earlier heq
  simp [initial] at heq

end Loop

/-- In a run of the loop no crashed database is saved or used again, and each is discarded before
the next request is handled, exactly if the channel is never closed right after a caught crash. -/
theorem crash_discarded_iff {libraryInitialized : Bool} {versionMismatch : Option String}
    {actions : List Loop.Action} {s : Loop}
    (h : run Loop.step (Loop.initial libraryInitialized versionMismatch) actions = some s) :
    s.CrashDiscarded ↔ Meets Loop.step discards (Loop.initial libraryInitialized versionMismatch) actions := by
  have hkept : ∀ {before t}, Meets Loop.step discards (Loop.initial libraryInitialized versionMismatch) before →
      run Loop.step (Loop.initial libraryInitialized versionMismatch) before = some t →
        t.Coherent ∧ t.Crashes := by
    intro before t hmeets ht
    refine invariant_of_meets (I := fun s : Loop => s.Coherent ∧ s.Crashes) ?_
      ⟨Loop.initial_coherent _ _, Loop.initial_crashes _ _⟩ ⟨before, hmeets, ht⟩
    intro u a w hu hok hw
    exact ⟨hu.1.step hw, hu.2.step hu.1 hok hw⟩
  constructor
  · intro hdiscarded
    by_contra hmeets
    obtain ⟨before, action, after, u, rfl, hbefore, hu, hok⟩ := exists_not_ok hmeets
    obtain ⟨hcoherent, hcrashes⟩ := hkept hbefore hu
    obtain ⟨u', t, hu', ht, hs⟩ := run_append_cons.mp h
    obtain rfl : u' = u := Option.some.inj (hu'.symm.trans hu)
    cases action with
    | receive request answers => exact hok trivial
    | disconnect =>
      unfold Loop.step at ht
      split at ht
      · obtain rfl := Option.some.inj ht
        cases after with
        | nil =>
          obtain rfl := Option.some.inj hs
          exact Loop.disconnect_saves hcoherent hcrashes hok hdiscarded
        | cons action after =>
          -- the loop has ended, so the disconnect is the last event
          rw [run, Loop.step_of_not_running rfl] at hs
          cases hs
      · cases ht
  · intro hmeets
    exact (hkept hmeets h).2.crashDiscarded

def Answers.crashing : Answers :=
  { Answers.succeeding with result := .error (.sdkCrashed "handle_decompile") }

/-- The channel is closed right after a decompilation has crashed. -/
theorem crashed_database_saved : ∃ s,
    run Loop.step (Loop.initial false none) [.receive (.open (.ofPath "sample.i64")) .succeeding,
      .receive (.operation .decompile none) .crashing, .disconnect] = some s ∧
    s.log.take 2 = [.closed 0 true, .crashed 0] ∧ ¬s.CrashDiscarded := by
  refine ⟨_, rfl, rfl, ?_⟩
  intro hdiscarded
  exact (hdiscarded [.closed 0 true] 0 _ rfl).1.saved List.mem_cons_self

def crashThenShutdown : List Loop.Action :=
  [.receive (.open (.ofPath "sample.i64")) .succeeding, .receive (.operation .decompile none) .crashing,
    .receive .shutdown .succeeding]

theorem crash_discarded_iff_shutdown : ∃ s, run Loop.step (Loop.initial false none) crashThenShutdown = some s ∧
    s.log.take 3 = [.handled .shutdown, .closed 0 false, .crashed 0] ∧ s.CrashDiscarded := by
  refine ⟨_, rfl, rfl, ?_⟩
  have hrun : run Loop.step (Loop.initial false none) crashThenShutdown = some _ := rfl
  refine (crash_discarded_iff hrun).mpr ⟨trivial, ?_⟩
  intro t _
  exact ⟨trivial, fun u _ => ⟨trivial, fun _ _ => trivial⟩⟩

end IdaMcp.Worker
