import IdaMcp.Workspace.Ownership

namespace IdaMcp.Workspace

open Foundation Pool

variable {cfg : Config} {s : State} {u : OperationId} {d : DatabaseId} {p p' : Position} {b : Bool}
  {w : WorkerId} {l : LeaseId} {spare : Option (WorkerId × LeaseId)} {orphan : Option TaskId}
  {db : WorkspaceDatabase} {operation : Operation}

namespace Position

theorem locks_of_clears (h : p.clears = true) : p.locks = true := by
  cases p with
  | acquire => rfl
  | await t stage =>
    cases stage with
    | retireStale | lease => rfl
    | openCall | call | finish => cases h
  | _ => cases h

theorem clears_of_pending {g : DatabaseGeneration} (h : p.pending = some g) : p.clears = true := by
  cases p with
  | await t stage =>
    cases stage with
    | lease => rfl
    | _ => cases h
  | _ => cases h

theorem names_of_pending {g : DatabaseGeneration} (h : p.pending = some g) : p.names = none := by
  cases p with
  | await t stage =>
    cases stage with
    | lease => rfl
    | _ => cases h
  | _ => cases h

end Position

namespace State

theorem operation_setOperation (s : State) (u u' : OperationId) (operation : Option Operation) :
    (s.setOperation u operation).operation u' = if u' = u then operation else s.operation u' := by
  simp only [setOperation, Function.update_apply]

theorem database_setDatabase (s : State) (d d' : DatabaseId) (db : WorkspaceDatabase) :
    (s.setDatabase d db).database d' = if d' = d then db else s.database d' := by
  simp only [setDatabase, Function.update_apply]

theorem setDatabase_self (s : State) (d : DatabaseId) : s.setDatabase d (s.database d) = s := by
  simp [setDatabase]

theorem setDatabase_setDatabase (s : State) (d : DatabaseId) (db db' : WorkspaceDatabase) :
    (s.setDatabase d db).setDatabase d db' = s.setDatabase d db' := by
  simp [setDatabase, Function.update_idem]

theorem setLock_setDatabase (s : State) (d : DatabaseId) (db : WorkspaceDatabase)
    (lock : Option OperationId) :
    (s.setDatabase d db).setLock d lock = s.setDatabase d { db with lock } := by
  rw [setLock, setDatabase_setDatabase, database_setDatabase, if_pos rfl]

theorem setHandle_setDatabase (s : State) (d : DatabaseId) (db : WorkspaceDatabase)
    (handle : Option PooledDatabaseLease) :
    (s.setDatabase d db).setHandle d handle = s.setDatabase d { db with handle } := by
  rw [setHandle, setDatabase_setDatabase, database_setDatabase, if_pos rfl]

theorem operation_of_vacated {u' : OperationId} (h : (s.setOperation u none).operation u' = some operation) :
    u' ≠ u ∧ s.operation u' = some operation := by
  rw [operation_setOperation] at h
  split_ifs at h with hu
  exact ⟨hu, h⟩

theorem names_of_vacated {lease : PooledDatabaseLease} (h : (s.setOperation u none).Names d lease) :
    s.Names d lease := by
  rcases h with hhandle | ⟨u', p, b, hop, hnames⟩
  · exact .inl hhandle
  · exact .inr ⟨u', p, b, (operation_of_vacated hop).2, hnames⟩

theorem inFlight_vacated (h : s.InFlight w l)
    (hguard : ∀ d handle g b, s.operation u = some ⟨d, .clearHandle handle g true, b⟩ →
      handle.workerId = w → handle.leaseId = l → s.pool.Covered w l) :
    (s.setOperation u none).InFlight w l := by
  rcases h with hcovered | ⟨u', d, handle, g, b, hop, hw, hl⟩
  · exact .inl hcovered
  · by_cases hu : u' = u
    · subst hu
      exact .inl (hguard d handle g b hop hw hl)
    · refine .inr ⟨u', d, handle, g, b, ?_, hw, hl⟩
      rw [operation_setOperation, if_neg hu]
      exact hop

end State

theorem Sheltered.vacate (h : Sheltered cfg s spare orphan)
    (hleasing : ∀ d t g b session, s.operation u = some ⟨d, .await t (.lease g), b⟩ →
      s.pool.role Pool.Position.leases t ≠ some session)
    (hguard : ∀ d handle g b, s.operation u = some ⟨d, .clearHandle handle g true, b⟩ →
      (s.pool.stateOf handle.workerId).belongsToLease handle.leaseId = true →
      s.pool.Covered handle.workerId handle.leaseId) :
    Sheltered cfg (s.setOperation u none) spare orphan := by
  refine { h with fresh := ?_, admits := ?_, issued := ?_, one := ?_, leasing := ?_, sheltered := ?_ }
  · intro u' hu'
    rw [State.operation_setOperation]
    split_ifs
    · rfl
    · exact h.fresh u' hu'
  · intro u' d p b hop
    have hadmits := h.admits u' d p b (State.operation_of_vacated hop).2
    refine { hadmits with pending := ?_ }
    intro g hg
    obtain ⟨hnext, hnames⟩ := hadmits.pending g hg
    exact ⟨hnext, fun lease hlease => hnames lease (State.names_of_vacated hlease)⟩
  · exact fun d lease hnames => h.issued d lease (State.names_of_vacated hnames)
  · exact fun d lease lease' hnames hnames' =>
      h.one d lease lease' (State.names_of_vacated hnames) (State.names_of_vacated hnames')
  · intro t session ht
    rcases h.leasing t session ht with horphan | ⟨u', g, b, hop⟩
    · exact .inl horphan
    · have hu : u' ≠ u := by
        rintro rfl
        exact hleasing session t g b session hop ht
      refine .inr ⟨u', g, b, ?_⟩
      rw [State.operation_setOperation, if_neg hu]
      exact hop
  · intro w l hbelongs
    rcases h.sheltered w l hbelongs with hspare | hinstalled | hflight
    · exact .inl hspare
    · exact .inr (.inl hinstalled)
    · refine .inr (.inr (State.inFlight_vacated hflight ?_))
      rintro d handle g b hop rfl rfl
      exact hguard d handle g b hop hbelongs

structure Installs (s : State) (d : DatabaseId) (lease : PooledDatabaseLease)
    (db : WorkspaceDatabase) : Prop where
  issued : s.pool.Issued lease.handle
  le : lease.generation ≤ db.nextDatabaseGeneration
  new : ∀ lease', s.Names d lease' → lease'.generation ≠ lease.generation
  session : lease.handle.sessionId = d

theorem Sheltered.setDatabase {spare' : Option (WorkerId × LeaseId)} (h : Sheltered cfg s spare orphan)
    (hfree : ∀ u p b, s.operation u = some ⟨d, p, b⟩ → p.locks = false)
    (hnext : (s.database d).nextDatabaseGeneration ≤ db.nextDatabaseGeneration)
    (hhandle : ∀ lease, db.handle = some lease →
      (s.database d).handle = some lease ∨ Installs s d lease db)
    (hgone : ∀ lease, (s.database d).handle = some lease → db.handle = some lease ∨
      ((s.pool.stateOf lease.handle.workerId).belongsToLease lease.handle.leaseId = true →
        s.InFlight lease.handle.workerId lease.handle.leaseId))
    (hspare : ∀ w l, spare = some (w, l) → spare' = some (w, l) ∨
      ∃ lease, db.handle = some lease ∧ lease.handle.workerId = w ∧ lease.handle.leaseId = l) :
    Sheltered cfg (s.setDatabase d db) spare' orphan := by
  have hself : (s.setDatabase d db).database d = db := by rw [State.database_setDatabase, if_pos rfl]
  have hother {d' : DatabaseId} (hd : d' ≠ d) : (s.setDatabase d db).database d' = s.database d' := by
    rw [State.database_setDatabase, if_neg hd]
  have hnames {d' : DatabaseId} {lease : PooledDatabaseLease}
      (hn : (s.setDatabase d db).Names d' lease) :
      s.Names d' lease ∨ d' = d ∧ db.handle = some lease ∧ Installs s d lease db := by
    rcases hn with hn | hn
    · by_cases hd : d' = d
      · subst hd
        rw [hself] at hn
        rcases hhandle lease hn with hold | hnew
        · exact .inl (.inl hold)
        · exact .inr ⟨rfl, hn, hnew⟩
      · rw [hother hd] at hn
        exact .inl (.inl hn)
    · exact .inl (.inr hn)
  have hsession {d' : DatabaseId} {lease : PooledDatabaseLease}
      (hlease : ((s.setDatabase d db).database d').handle = some lease) :
      s.pool.Issued lease.handle ∧ lease.handle.sessionId = d' := by
    by_cases hd : d' = d
    · subst hd
      rw [hself] at hlease
      rcases hhandle lease hlease with hold | hnew
      · exact ⟨(h.issued d' lease (.inl hold)).1, h.session d' lease hold⟩
      · exact ⟨hnew.issued, hnew.session⟩
    · rw [hother hd] at hlease
      exact ⟨(h.issued d' lease (.inl hlease)).1, h.session d' lease hlease⟩
  refine { h with admits := ?_, issued := ?_, one := ?_, session := ?_, unique := ?_, sheltered := ?_ }
  · intro u d' p b hop
    have hadmits := h.admits u d' p b hop
    by_cases hd : d' = d
    · subst hd
      have hlocks := hfree u p b hop
      have hclears : p.clears ≠ true := by
        intro hclears
        rw [Position.locks_of_clears hclears] at hlocks
        cases hlocks
      refine { hadmits with locked := ?_, vacant := ?_, pending := ?_ }
      · intro htrue
        rw [hlocks] at htrue
        cases htrue
      · exact fun htrue => (hclears htrue).elim
      · exact fun g hg => (hclears (Position.clears_of_pending hg)).elim
    · refine { hadmits with locked := ?_, vacant := ?_, pending := ?_ }
      · rw [hother hd]
        exact hadmits.locked
      · rw [hother hd]
        exact hadmits.vacant
      · intro g hg
        rw [hother hd]
        obtain ⟨hnext', hne⟩ := hadmits.pending g hg
        refine ⟨hnext', ?_⟩
        intro lease hlease
        rcases hnames hlease with hold | ⟨hsame, -, -⟩
        · exact hne lease hold
        · exact (hd hsame).elim
  · intro d' lease hlease
    rcases hnames hlease with hold | ⟨rfl, -, hnew⟩
    · obtain ⟨hissued, hle⟩ := h.issued d' lease hold
      refine ⟨hissued, ?_⟩
      by_cases hd : d' = d
      · subst hd
        rw [hself]
        exact Nat.le_trans hle hnext
      · rw [hother hd]
        exact hle
    · rw [hself]
      exact ⟨hnew.issued, hnew.le⟩
  · intro d' lease lease' hlease hlease' hgeneration
    rcases hnames hlease with hold | ⟨rfl, hdb, hnew⟩
    · rcases hnames hlease' with hold' | ⟨rfl, -, hnew'⟩
      · exact h.one d' lease lease' hold hold' hgeneration
      · exact (hnew'.new lease hold hgeneration).elim
    · rcases hnames hlease' with hold' | ⟨-, hdb', -⟩
      · exact (hnew.new lease' hold' hgeneration.symm).elim
      · exact Option.some_inj.mp (hdb.symm.trans hdb')
  · exact fun d' lease hlease => (hsession hlease).2
  · rintro d₁ d₂ w₁ w₂ l ⟨lease, hlease, -, hl⟩ ⟨lease', hlease', -, hl'⟩
    obtain ⟨hissued, hs⟩ := hsession hlease
    obtain ⟨hissued', hs'⟩ := hsession hlease'
    rw [← hs, ← hs']
    exact session_eq_of_issued h.pool.tokens hissued hissued' (hl.trans hl'.symm)
  · intro w l hbelongs
    rcases h.sheltered w l hbelongs with hspares | ⟨d', lease, hlease, hw, hl⟩ | hflight
    · rcases hspare w l hspares with hspares' | ⟨lease, hlease, hw, hl⟩
      · exact .inl hspares'
      · refine .inr (.inl ⟨d, lease, ?_, hw, hl⟩)
        rw [hself]
        exact hlease
    · by_cases hd : d' = d
      · subst hd
        rcases hgone lease hlease with hkept | hgone
        · refine .inr (.inl ⟨d', lease, ?_, hw, hl⟩)
          rw [hself]
          exact hkept
        · subst hw hl
          exact .inr (.inr (hgone hbelongs))
      · refine .inr (.inl ⟨d', lease, ?_, hw, hl⟩)
        rw [hother hd]
        exact hlease
    · exact .inr (.inr hflight)

structure Nameable (s : State) (d : DatabaseId) (lease : PooledDatabaseLease) : Prop where
  issued : s.pool.Issued lease.handle
  le : lease.generation ≤ (s.database d).nextDatabaseGeneration
  one : ∀ lease', s.Names d lease' → lease'.generation = lease.generation → lease' = lease
  pending : ∀ u p b g, s.operation u = some ⟨d, p, b⟩ → p.pending = some g → lease.generation ≠ g

theorem Sheltered.nameable (h : Sheltered cfg s spare orphan) {lease : PooledDatabaseLease}
    (hnames : s.Names d lease) : Nameable s d lease := by
  obtain ⟨hissued, hle⟩ := h.issued d lease hnames
  refine ⟨hissued, hle, fun lease' hnames' => h.one d lease' lease hnames' hnames, ?_⟩
  intro u p b g hop hg
  exact ((h.admits u d p b hop).pending g hg).2 lease hnames

theorem Nameable.vacate {lease : PooledDatabaseLease} (h : Nameable s d lease) :
    Nameable (s.setOperation u none) d lease where
  issued := h.issued
  le := h.le
  one lease' hnames := h.one lease' (State.names_of_vacated hnames)
  pending u' p b g hop := h.pending u' p b g (State.operation_of_vacated hop).2

theorem Sheltered.occupy (h : Sheltered cfg s spare orphan) (hlt : u < s.nextOperation)
    (hu : s.operation u = none) (hadmits : s.Admits u d p b)
    (hnameable : ∀ lease, p.names = some lease → Nameable s d lease)
    (horphan : ∀ t session, orphan = some t → s.pool.role Pool.Position.leases t = some session →
      session = d ∧ ∃ g, p = .await t (.lease g)) :
    Sheltered cfg (s.setOperation u (some ⟨d, p, b⟩)) spare none := by
  have hself : (s.setOperation u (some ⟨d, p, b⟩)).operation u = some ⟨d, p, b⟩ := by
    rw [State.operation_setOperation, if_pos rfl]
  have hother {u' : OperationId} (hne : u' ≠ u) :
      (s.setOperation u (some ⟨d, p, b⟩)).operation u' = s.operation u' := by
    rw [State.operation_setOperation, if_neg hne]
  have hnamed {d' : DatabaseId} {lease : PooledDatabaseLease}
      (hn : (s.setOperation u (some ⟨d, p, b⟩)).Names d' lease) :
      s.Names d' lease ∨ d' = d ∧ p.names = some lease := by
    rcases hn with hn | ⟨u', p', b', hop, hn⟩
    · exact .inl (.inl hn)
    · by_cases hne : u' = u
      · subst hne
        rw [hself] at hop
        cases hop
        exact .inr ⟨rfl, hn⟩
      · rw [hother hne] at hop
        exact .inl (.inr ⟨u', p', b', hop, hn⟩)
  have hkept {u' : OperationId} {operation : Operation} (hop : s.operation u' = some operation) :
      (s.setOperation u (some ⟨d, p, b⟩)).operation u' = some operation := by
    have hne : u' ≠ u := by
      rintro rfl
      rw [hu] at hop
      cases hop
    rw [hother hne, hop]
  refine { h with fresh := ?_, admits := ?_, issued := ?_, one := ?_, leasing := ?_, sheltered := ?_ }
  · intro u' hu'
    have hne : u' ≠ u := Nat.ne_of_gt (Nat.lt_of_lt_of_le hlt hu')
    rw [hother hne]
    exact h.fresh u' hu'
  · intro u' d' p' b' hop
    by_cases hne : u' = u
    · subst hne
      rw [hself] at hop
      cases hop
      refine { hadmits with pending := ?_ }
      intro g hg
      obtain ⟨hnext, hfresh⟩ := hadmits.pending g hg
      refine ⟨hnext, ?_⟩
      intro lease hlease
      rcases hnamed hlease with hold | ⟨-, hnew⟩
      · exact hfresh lease hold
      · rw [Position.names_of_pending hg] at hnew
        cases hnew
    · rw [hother hne] at hop
      have hold := h.admits u' d' p' b' hop
      refine { hold with pending := ?_ }
      intro g hg
      obtain ⟨hnext, hfresh⟩ := hold.pending g hg
      refine ⟨hnext, ?_⟩
      intro lease hlease
      rcases hnamed hlease with hold | ⟨rfl, hnew⟩
      · exact hfresh lease hold
      · exact (hnameable lease hnew).pending u' p' b' g hop hg
  · intro d' lease hlease
    rcases hnamed hlease with hold | ⟨rfl, hnew⟩
    · exact h.issued d' lease hold
    · exact ⟨(hnameable lease hnew).issued, (hnameable lease hnew).le⟩
  · intro d' lease lease' hlease hlease' hgeneration
    rcases hnamed hlease with hold | ⟨rfl, hnew⟩
    · rcases hnamed hlease' with hold' | ⟨rfl, hnew'⟩
      · exact h.one d' lease lease' hold hold' hgeneration
      · exact (hnameable lease' hnew').one lease hold hgeneration
    · rcases hnamed hlease' with hold' | ⟨-, hnew'⟩
      · exact ((hnameable lease hnew).one lease' hold' hgeneration.symm).symm
      · exact Option.some_inj.mp (hnew.symm.trans hnew')
  · intro t session ht
    rcases h.leasing t session ht with horphans | ⟨u', g, b', hop⟩
    · obtain ⟨rfl, g, rfl⟩ := horphan t session horphans ht
      exact .inr ⟨u, g, b, hself⟩
    · exact .inr ⟨u', g, b', hkept hop⟩
  · intro w l hbelongs
    rcases h.sheltered w l hbelongs with hspare | hinstalled | hcovered | ⟨u', d', handle, g, b', hop, hw, hl⟩
    · exact .inl hspare
    · exact .inr (.inl hinstalled)
    · exact .inr (.inr (.inl hcovered))
    · exact .inr (.inr (.inr ⟨u', d', handle, g, b', hkept hop, hw, hl⟩))

theorem goto_eq (hu : s.operation u = some ⟨d, p, b⟩) (p' : Position) :
    s.goto u p' = (s.setOperation u none).setOperation u (some ⟨d, p', b⟩) := by
  simp [State.goto, State.setOperation, hu]

theorem lt_of_operation (h : Sheltered cfg s spare orphan) (hu : s.operation u = some operation) :
    u < s.nextOperation := by
  rw [← Nat.not_le]
  intro hle
  rw [h.fresh u hle] at hu
  cases hu

theorem unlocked_vacated (h : Sheltered cfg s spare orphan)
    (hfree : (s.database d).lock = none ∨ (s.database d).lock = some u) {u' : OperationId}
    (hop : (s.setOperation u none).operation u' = some ⟨d, p, b⟩) : p.locks = false := by
  obtain ⟨hne, hop⟩ := State.operation_of_vacated hop
  rw [← Bool.not_eq_true]
  intro hlocks
  have hlock := (h.admits u' d p b hop).locked hlocks
  rcases hfree with hfree | hfree
  · rw [hfree] at hlock
    cases hlock
  · exact hne (Option.some_inj.mp (hlock.symm.trans hfree))

theorem Sheltered.change {spare' : Option (WorkerId × LeaseId)} (h : Sheltered cfg s spare orphan)
    (hfree : (s.database d).lock = none ∨ (s.database d).lock = some u)
    (hleasing : ∀ d t g b session, s.operation u = some ⟨d, .await t (.lease g), b⟩ →
      s.pool.role Pool.Position.leases t ≠ some session)
    (hguard : ∀ d handle g b, s.operation u = some ⟨d, .clearHandle handle g true, b⟩ →
      (s.pool.stateOf handle.workerId).belongsToLease handle.leaseId = true →
      s.pool.Covered handle.workerId handle.leaseId)
    (hnext : (s.database d).nextDatabaseGeneration ≤ db.nextDatabaseGeneration)
    (hhandle : ∀ lease, db.handle = some lease →
      (s.database d).handle = some lease ∨ Installs s d lease db)
    (hgone : ∀ lease, (s.database d).handle = some lease → db.handle = some lease ∨
      ((s.pool.stateOf lease.handle.workerId).belongsToLease lease.handle.leaseId = true →
        s.pool.Covered lease.handle.workerId lease.handle.leaseId))
    (hspare : ∀ w l, spare = some (w, l) → spare' = some (w, l) ∨
      ∃ lease, db.handle = some lease ∧ lease.handle.workerId = w ∧ lease.handle.leaseId = l) :
    Sheltered cfg ((s.setOperation u none).setDatabase d db) spare' orphan := by
  refine (h.vacate hleasing hguard).setDatabase (fun _ _ _ hop => unlocked_vacated h hfree hop) hnext
    ?_ ?_ hspare
  · intro lease hlease
    rcases hhandle lease hlease with hold | hnew
    · exact .inl hold
    · exact .inr { hnew with new := fun lease' hn => hnew.new lease' (State.names_of_vacated hn) }
  · intro lease hlease
    rcases hgone lease hlease with hkept | hcovered
    · exact .inl hkept
    · exact .inr fun hbelongs => .inl (hcovered hbelongs)

end IdaMcp.Workspace
