import IdaMcp.Router.Handles

namespace IdaMcp.Router

open Foundation

def Call.opens : Call → Bool
  | .opening _ | .answering _ _ | .opened _ _ | .openingModule _ | .droppingModule _ | .moduleDone _ => true
  | _ => false

variable {j : Serde} {s s' : State} {u v : ℕ} {c d : Call} {id : String}

/-- What the registry says of the id of a call. -/
def Holds (j : Serde) (s : State) : Call → Prop
  | .opening id | .answering id (.error _) => id ∈ s.registered ↔ id ∉ s.taken
  | .answering id (.ok r) => carries j r id = false ∧ (id ∈ s.registered ↔ id ∉ s.taken)
  | .opened id (.ok r) => id ∈ s.registered ↔ carries j r id = true ∧ id ∉ s.taken
  | .opened id (.error _) => id ∉ s.registered
  | .deciding _ found result => result = .error .noDatabaseOpen → found = false
  | .removing _ found running remove => remove = false → found = false ∧ running = true
  | .closed id found running => id ∈ s.registered → found = false ∧ running = true
  | _ => True

structure Sound (j : Serde) (s : State) : Prop where
  lt : ∀ u c, s.call u = some c → u < s.nextCall
  drawn : ∀ u c, s.call u = some c → c.id ∈ s.drawn
  registered : ∀ id ∈ s.registered, id ∈ s.drawn
  taken : ∀ id ∈ s.taken, id ∈ s.drawn ∧ id ∉ s.registered
  one : ∀ u v c d, s.call u = some c → s.call v = some d → c.opens = true → d.opens = true →
    c.id = d.id → u = v
  holds : ∀ u c, s.call u = some c → Holds j s c

theorem sound_initial (j : Serde) : Sound j initial where
  lt := by intro u c h; cases h
  drawn := by intro u c h; cases h
  registered := by intro id h; cases h
  taken := by intro id h; cases h
  one := by intro u v c d h; cases h
  holds := by intro u c h; cases h

theorem Holds.congr (h : Holds j s c) (hregistered : c.id ∈ s'.registered ↔ c.id ∈ s.registered)
    (htaken : c.id ∈ s'.taken ↔ c.id ∈ s.taken) : Holds j s' c := by
  cases c with
  | opening id =>
    exact hregistered.trans (Iff.trans h (not_congr htaken).symm)
  | answering id response =>
    cases response with
    | error e => exact hregistered.trans (Iff.trans h (not_congr htaken).symm)
    | ok r => exact ⟨h.1, hregistered.trans (Iff.trans h.2 (not_congr htaken).symm)⟩
  | opened id response =>
    cases response with
    | error e => exact fun hmem => h (hregistered.mp hmem)
    | ok r => exact hregistered.trans (Iff.trans h (and_congr_right fun _ => (not_congr htaken).symm))
  | closed id found running => exact fun hmem => h (hregistered.mp hmem)
  | deciding | removing => exact h
  | _ => trivial

@[simp] theorem mem_unregister {id' : String} :
    id' ∈ (s.unregister id).registered ↔ id' ∈ s.registered ∧ id' ≠ id := by
  simp [State.unregister]

@[simp] theorem mem_take_registered {id' : String} :
    id' ∈ (s.take id).registered ↔ id' ∈ s.registered ∧ id' ≠ id :=
  mem_unregister

@[simp] theorem mem_take_taken {id' : String} : id' ∈ (s.take id).taken ↔ id' = id ∨ id' ∈ s.taken :=
  List.mem_cons

theorem Holds.take (h : Holds j s c) (id : String) : Holds j (s.take id) c := by
  by_cases hid : c.id = id
  · have hgone : c.id ∉ (s.take id).registered := fun hmem => (mem_take_registered.mp hmem).2 hid
    have htaken : c.id ∈ (s.take id).taken := mem_take_taken.mpr (.inl hid)
    cases c with
    | opening id => exact iff_of_false hgone (not_not.mpr htaken)
    | answering id response =>
      cases response with
      | error e => exact iff_of_false hgone (not_not.mpr htaken)
      | ok r => exact ⟨h.1, iff_of_false hgone (not_not.mpr htaken)⟩
    | opened id response =>
      cases response with
      | error e => exact hgone
      | ok r => exact iff_of_false hgone fun hand => hand.2 htaken
    | closed id found running => exact fun hmem => absurd hmem hgone
    | deciding | removing => exact h
    | _ => trivial
  · apply h.congr
    · rw [mem_take_registered]
      exact ⟨fun hmem => hmem.1, fun hmem => ⟨hmem, hid⟩⟩
    · rw [mem_take_taken]
      exact ⟨fun hmem => hmem.resolve_left hid, .inr⟩

theorem Holds.unregister (h : Holds j s c) (hid : c.opens = true → c.id ≠ id) :
    Holds j (s.unregister id) c := by
  by_cases heq : c.id = id
  · have hgone : c.id ∉ (s.unregister id).registered := fun hmem => (mem_unregister.mp hmem).2 heq
    cases c with
    | closed id found running => exact fun hmem => absurd hmem hgone
    | deciding | removing => exact h
    | closing | releasing => trivial
    | _ => exact absurd heq (hid rfl)
  · apply h.congr
    · rw [mem_unregister]
      exact ⟨fun hmem => hmem.1, fun hmem => ⟨hmem, heq⟩⟩
    · exact Iff.rfl

theorem call_setCall (h : (s.setCall u c).call v = some d) : v = u ∧ d = c ∨ v ≠ u ∧ s.call v = some d := by
  by_cases hv : v = u
  · subst hv
    have hself : (s.setCall v c).call v = some c := Function.update_self ..
    rw [hself, Option.some.injEq] at h
    exact .inl ⟨rfl, h.symm⟩
  · have hother : (s.setCall u c).call v = s.call v := Function.update_of_ne hv ..
    rw [hother] at h
    exact .inr ⟨hv, h⟩

theorem Sound.setCall (hs : Sound j s) (hu : s.call u = some c) (hid : d.id = c.id)
    (hopens : d.opens = true → c.opens = true) (hcall : s'.call = s.call)
    (hnext : s'.nextCall = s.nextCall) (hdrawn : s'.drawn = s.drawn)
    (hregistered : ∀ id ∈ s'.registered, id ∈ s.registered)
    (htaken : ∀ id ∈ s'.taken, id ∈ s.drawn ∧ id ∉ s'.registered)
    (hother : ∀ v e, v ≠ u → s.call v = some e → Holds j s' e) (hholds : Holds j s' d) :
    Sound j (s'.setCall u d) where
  lt := by
    intro v e he
    change v < s'.nextCall
    rw [hnext]
    rcases call_setCall he with ⟨rfl, -⟩ | ⟨-, he⟩
    · exact hs.lt v c hu
    · rw [hcall] at he
      exact hs.lt v e he
  drawn := by
    intro v e he
    change e.id ∈ s'.drawn
    rw [hdrawn]
    rcases call_setCall he with ⟨-, rfl⟩ | ⟨-, he⟩
    · rw [hid]
      exact hs.drawn u c hu
    · rw [hcall] at he
      exact hs.drawn v e he
  registered := by
    intro id hmem
    change id ∈ s'.drawn
    rw [hdrawn]
    exact hs.registered id (hregistered id hmem)
  taken := by
    intro id hmem
    obtain ⟨hin, hout⟩ := htaken id hmem
    refine ⟨?_, hout⟩
    change id ∈ s'.drawn
    rw [hdrawn]
    exact hin
  one := by
    intro v w e f he hf heo hfo hsame
    rcases call_setCall he with ⟨rfl, rfl⟩ | ⟨hv, he'⟩
    · rcases call_setCall hf with ⟨rfl, -⟩ | ⟨-, hf'⟩
      · rfl
      · rw [hcall] at hf'
        exact hs.one v w c f hu hf' (hopens heo) hfo (hid.symm.trans hsame)
    · rw [hcall] at he'
      rcases call_setCall hf with ⟨rfl, rfl⟩ | ⟨-, hf'⟩
      · exact hs.one v w e c he' hu heo (hopens hfo) (hsame.trans hid)
      · rw [hcall] at hf'
        exact hs.one v w e f he' hf' heo hfo hsame
  holds := by
    intro v e he
    rcases call_setCall he with ⟨-, rfl⟩ | ⟨hv, he⟩
    · exact hholds.congr Iff.rfl Iff.rfl
    · rw [hcall] at he
      exact (hother v e hv he).congr Iff.rfl Iff.rfl

theorem Sound.goto (hs : Sound j s) (hu : s.call u = some c) (hid : d.id = c.id)
    (hopens : d.opens = true → c.opens = true) (hholds : Holds j s d) : Sound j (s.setCall u d) :=
  hs.setCall hu hid hopens rfl rfl rfl (fun _ h => h) hs.taken (fun v e _ he => hs.holds v e he) hholds

theorem Sound.unregister (hs : Sound j s) (hu : s.call u = some c) (hc : c.opens = true)
    (hid : d.id = c.id) (hholds : Holds j (s.unregister c.id) d) :
    Sound j ((s.unregister c.id).setCall u d) := by
  refine hs.setCall hu hid (fun _ => hc) rfl rfl rfl ?_ ?_ ?_ hholds
  · intro id hmem
    exact (mem_unregister.mp hmem).1
  · intro id hmem
    obtain ⟨hin, hout⟩ := hs.taken id hmem
    exact ⟨hin, fun hmem' => hout (mem_unregister.mp hmem').1⟩
  · intro v e hv he
    apply (hs.holds v e he).unregister
    intro heo hsame
    exact hv (hs.one v u e c he hu heo hc hsame)

theorem Sound.take (hs : Sound j s) (id : String) (hid : id ∈ s.drawn) : Sound j (s.take id) where
  lt := hs.lt
  drawn := hs.drawn
  registered := fun id' hmem => hs.registered id' (mem_take_registered.mp hmem).1
  taken := by
    intro id' hmem
    rcases mem_take_taken.mp hmem with rfl | hmem
    · exact ⟨hid, fun hin => (mem_take_registered.mp hin).2 rfl⟩
    · obtain ⟨hin, hout⟩ := hs.taken id' hmem
      exact ⟨hin, fun hmem' => hout (mem_take_registered.mp hmem').1⟩
  one := hs.one
  holds := fun u c hu => (hs.holds u c hu).take id

theorem Sound.addCall (hs : Sound j s) (hcall : s'.call = s.call) (hnext : s'.nextCall = s.nextCall)
    (hdrawn : ∀ id ∈ s.drawn, id ∈ s'.drawn) (hc : c.id ∈ s'.drawn)
    (hregistered : ∀ id ∈ s'.registered, id ∈ s'.drawn)
    (htaken : ∀ id ∈ s'.taken, id ∈ s'.drawn ∧ id ∉ s'.registered)
    (hfresh : c.opens = true → c.id ∉ s.drawn)
    (hother : ∀ v d, s.call v = some d → Holds j s' d) (hholds : Holds j s' c) :
    Sound j (s'.addCall c) := by
  have hcases : ∀ {v d}, (s'.addCall c).call v = some d → v = s.nextCall ∧ d = c ∨
      v ≠ s.nextCall ∧ s.call v = some d := by
    intro v d h
    rcases call_setCall h with ⟨hv, hd⟩ | ⟨hv, hd⟩
    · exact .inl ⟨hv.trans hnext, hd⟩
    · rw [hcall] at hd
      exact .inr ⟨hnext ▸ hv, hd⟩
  constructor
  · intro v d hd
    change v < s'.nextCall + 1
    rw [hnext]
    rcases hcases hd with ⟨rfl, -⟩ | ⟨-, hd⟩
    · exact Nat.lt_succ_self _
    · exact Nat.lt_succ_of_lt (hs.lt v d hd)
  · intro v d hd
    rcases hcases hd with ⟨-, rfl⟩ | ⟨-, hd⟩
    · exact hc
    · exact hdrawn _ (hs.drawn v d hd)
  · exact hregistered
  · exact htaken
  · intro v w d e hd he hdo heo hsame
    rcases hcases hd with ⟨rfl, rfl⟩ | ⟨-, hd'⟩
    · rcases hcases he with ⟨rfl, -⟩ | ⟨-, he'⟩
      · rfl
      · exact absurd (hsame ▸ hs.drawn w e he') (hfresh hdo)
    · rcases hcases he with ⟨rfl, rfl⟩ | ⟨-, he'⟩
      · exact absurd (hsame ▸ hs.drawn v d hd') (hfresh heo)
      · exact hs.one v w d e hd' he' hdo heo hsame
  · intro v d hd
    rcases hcases hd with ⟨-, rfl⟩ | ⟨-, hd⟩
    · exact hholds.congr Iff.rfl Iff.rfl
    · exact (hother v d hd).congr Iff.rfl Iff.rfl

theorem sound_allocate (hs : Sound j s) {uuid : String} (isModule : Bool) (hfresh : uuid ∉ s.drawn) :
    Sound j ({ s with registered := uuid :: s.registered, drawn := uuid :: s.drawn }.addCall
      (if isModule then .openingModule uuid else .opening uuid)) := by
  have hid : (if isModule then Call.openingModule uuid else Call.opening uuid).id = uuid := by
    split_ifs <;> rfl
  have hnot : uuid ∉ s.taken := fun hmem => hfresh (hs.taken uuid hmem).1
  refine hs.addCall rfl rfl ?_ ?_ ?_ ?_ ?_ ?_ ?_
  · intro id hmem
    exact List.mem_cons_of_mem _ hmem
  · rw [hid]
    exact List.mem_cons_self
  · intro id hmem
    rcases List.mem_cons.mp hmem with rfl | hmem
    · exact List.mem_cons_self
    · exact List.mem_cons_of_mem _ (hs.registered id hmem)
  · intro id hmem
    obtain ⟨hin, hout⟩ := hs.taken id hmem
    refine ⟨List.mem_cons_of_mem _ hin, fun hmem' => ?_⟩
    rcases List.mem_cons.mp hmem' with rfl | hmem'
    · exact hfresh hin
    · exact hout hmem'
  · intro _
    rw [hid]
    exact hfresh
  · intro v d hd
    have hne : d.id ≠ uuid := by
      intro heq
      rw [← heq] at hfresh
      exact hfresh (hs.drawn v d hd)
    refine (hs.holds v d hd).congr ?_ Iff.rfl
    rw [List.mem_cons]
    exact ⟨fun hmem => hmem.resolve_left hne, .inr⟩
  · cases isModule with
    | true => trivial
    | false => exact iff_of_true List.mem_cons_self hnot

theorem sound_answer (hs : Sound j s) {response : Except ErrorData CallToolResponse}
    (h : answer j s u response = some s') : Sound j s' := by
  unfold answer at h
  split at h
  · next id r hu =>
    split_ifs at h with hcarries
    cases h
    rw [Bool.not_eq_true] at hcarries
    exact hs.goto hu rfl (fun _ => rfl) ⟨hcarries, hs.holds u (.opening id) hu⟩
  · next id e hu =>
    cases h
    exact hs.goto hu rfl (fun _ => rfl) (hs.holds u (.opening id) hu)
  · cases h

theorem sound_finish (hj : j.Faithful) (hs : Sound j s) (h : finish j s u = some s') : Sound j s' := by
  unfold finish at h
  split at h
  · next id e hu =>
    cases h
    refine hs.unregister (c := .answering id (.error e)) hu rfl rfl ?_
    intro hmem
    exact (mem_unregister.mp hmem).2 rfl
  · next id r hu =>
    obtain ⟨hcarries, hregistered⟩ := hs.holds u _ hu
    rcases attach_cases j hj r id with ⟨hattached, hcarried⟩ | ⟨hattached, hsame⟩
    · simp only [hattached, if_true, Option.some.injEq] at h
      rw [← h]
      refine hs.goto hu rfl (fun _ => rfl) ?_
      exact hregistered.trans ⟨fun hnot => ⟨hcarried, hnot⟩, fun hand => hand.2⟩
    · simp only [hattached, hsame, Bool.false_eq_true, if_false, Option.some.injEq] at h
      rw [← h]
      refine hs.unregister (c := .answering id (.ok r)) hu rfl rfl ?_
      refine iff_of_false (fun hmem => (mem_unregister.mp hmem).2 rfl) ?_
      rintro ⟨hcarried, -⟩
      rw [hcarries] at hcarried
      cases hcarried
  · cases h

theorem sound_decide (hs : Sound j s) {found : Bool} {result : Except ToolError Unit}
    (hu : s.call u = some (.deciding id found result)) :
    Sound j (s.setCall u (.removing id found (s.hasRunningWorkspaceOpen id)
      (workspaceCloseShouldRemoveEntry result (s.hasRunningWorkspaceOpen id)))) := by
  have hfound : result = .error .noDatabaseOpen → found = false := hs.holds u _ hu
  refine hs.goto hu rfl (fun h => h) ?_
  intro hkeep
  unfold workspaceCloseShouldRemoveEntry at hkeep
  split at hkeep
  · exact ⟨hfound rfl, by simpa using hkeep⟩
  · cases hkeep

theorem sound_remove (hs : Sound j s) {found running remove : Bool}
    (hu : s.call u = some (.removing id found running remove)) :
    Sound j ((if remove then s.take id else s).setCall u (.closed id found running)) := by
  have hdrawn : id ∈ s.drawn := hs.drawn u _ hu
  cases remove with
  | true =>
    have htake := hs.take id hdrawn
    refine htake.goto (c := .removing id found running true) hu rfl (fun h => h) ?_
    intro hmem
    exact absurd rfl (mem_take_registered.mp hmem).2
  | false =>
    have hkept : found = false ∧ running = true := hs.holds u _ hu rfl
    exact hs.goto hu rfl (fun h => h) fun _ => hkept

theorem Sound.frame (hs : Sound j s) (hregistered : s'.registered = s.registered)
    (hdrawn : s'.drawn = s.drawn) (htaken : s'.taken = s.taken) (hcall : s'.call = s.call)
    (hnext : s'.nextCall = s.nextCall) : Sound j s' where
  lt := by
    rw [hcall, hnext]
    exact hs.lt
  drawn := by
    rw [hcall, hdrawn]
    exact hs.drawn
  registered := by
    rw [hregistered, hdrawn]
    exact hs.registered
  taken := by
    rw [htaken, hdrawn, hregistered]
    exact hs.taken
  one := by
    rw [hcall]
    exact hs.one
  holds := by
    intro u c hu
    rw [hcall] at hu
    apply (hs.holds u c hu).congr
    · rw [hregistered]
    · rw [htaken]

theorem sound_closeIdb (hs : Sound j s) (hid : id ∈ s.registered) : Sound j (s.addCall (.closing id)) := by
  refine hs.addCall rfl rfl (fun _ h => h) ?_ hs.registered hs.taken ?_ hs.holds trivial
  · exact hs.registered id hid
  · intro h
    cases h

theorem sound_takeHandle (hs : Sound j s) (h : takeHandle s u = some s') : Sound j s' := by
  unfold takeHandle at h
  split at h
  · next id hu =>
    split_ifs at h with hleased
    · cases h
      have hframe : Sound j { s with leased := Function.update s.leased id false } :=
        hs.frame rfl rfl rfl rfl rfl
      exact hframe.goto (c := .closing id) hu rfl (fun h => h) trivial
    · cases h
      exact hs.goto hu rfl (fun h => h) fun _ => rfl
  · cases h

theorem sound_release (hs : Sound j s) {result : Except ToolError Unit}
    (h : release s u result = some s') : Sound j s' := by
  unfold release at h
  split at h
  · cases h
  · next id hu hnot =>
    cases h
    refine hs.goto hu rfl (fun h => h) ?_
    intro hresult
    exact absurd hresult (by simpa using hnot)
  · cases h

theorem sound_step (hj : j.Faithful) {a : Action} (hs : Sound j s) (h : step j s a = some s') :
    Sound j s' := by
  cases a with
  | allocateDatabase uuid isModule =>
    simp only [step] at h
    split at h
    · cases h
    · next hfresh =>
      cases h
      exact sound_allocate hs isModule hfresh
  | bindWorkspaceOpen u =>
    simp only [step] at h
    split at h
    · cases h
      exact hs.frame rfl rfl rfl rfl rfl
    · cases h
  | answer u response => exact sound_answer hs h
  | finish u => exact sound_finish hj hs h
  | moduleOpened u ok =>
    simp only [step] at h
    split at h
    · next id hu =>
      cases h
      cases ok with
      | true => exact hs.goto hu rfl (fun _ => rfl) trivial
      | false => exact hs.goto hu rfl (fun _ => rfl) trivial
    · cases h
  | closeModule u =>
    simp only [step] at h
    split at h
    · next id hu =>
      cases h
      exact hs.unregister hu rfl rfl trivial
    · cases h
  | closeIdb id =>
    simp only [step] at h
    split_ifs at h with hid
    cases h
    exact sound_closeIdb hs hid
  | takeHandle u => exact sound_takeHandle hs h
  | release u result => exact sound_release hs h
  | decide u =>
    simp only [step] at h
    split at h
    · next id found result hu =>
      cases h
      exact sound_decide hs hu
    · cases h
  | remove u =>
    simp only [step] at h
    split at h
    · next id found running remove hu =>
      cases h
      exact sound_remove hs hu
    · cases h
  | setLease id leased =>
    simp only [step] at h
    split_ifs at h with hopen
    cases h
    exact hs.frame rfl rfl rfl rfl rfl
  | settleTask id =>
    simp only [step] at h
    split_ifs at h with htask
    cases h
    exact hs.frame rfl rfl rfl rfl rfl
  | reap id =>
    simp only [step] at h
    split_ifs at h with hreap
    cases h
    exact hs.take id (hs.registered id hreap.1)

theorem sound_of_reachable (hj : j.Faithful) (h : Reachable (step j) initial s) : Sound j s :=
  invariant_of_reachable (fun _ _ _ hs hstep => sound_step hj hs hstep) (sound_initial j) h

/-- The call with number `u` has moved to `c`, and the registry is as before up to the id of `c`. -/
def OwnId (s s' : State) (u : ℕ) (c : Call) : Prop :=
  (∀ v, v ≠ u → s'.call v = s.call v) ∧ s'.call u = some c ∧ s.call u ≠ some c ∧
    ∀ id, id ≠ c.id → (id ∈ s'.registered ↔ id ∈ s.registered)

theorem ownId_setCall (hcall : s'.call = s.call) (hne : s.call u ≠ some c)
    (hregistered : ∀ id, id ≠ c.id → (id ∈ s'.registered ↔ id ∈ s.registered)) :
    OwnId s (s'.setCall u c) u c := by
  refine ⟨?_, Function.update_self .., hne, hregistered⟩
  intro v hv
  have hother : (s'.setCall u c).call v = s'.call v := Function.update_of_ne hv ..
  rw [hother, hcall]

theorem mem_unregister_of_ne {id' : String} (h : id' ≠ id) :
    id' ∈ (s.unregister id).registered ↔ id' ∈ s.registered := by
  rw [mem_unregister]
  exact ⟨fun hmem => hmem.1, fun hmem => ⟨hmem, h⟩⟩

theorem ownId_allocate (hs : Sound j s) {uuid : String} (isModule : Bool) :
    OwnId s ({ s with registered := uuid :: s.registered, drawn := uuid :: s.drawn }.addCall
      (if isModule then .openingModule uuid else .opening uuid)) s.nextCall
      (if isModule then .openingModule uuid else .opening uuid) := by
  have hset : OwnId s ({ s with registered := uuid :: s.registered }.setCall s.nextCall
      (if isModule then .openingModule uuid else .opening uuid)) s.nextCall
      (if isModule then .openingModule uuid else .opening uuid) := by
    refine ownId_setCall rfl ?_ ?_
    · intro hcall
      exact Nat.lt_irrefl _ (hs.lt _ _ hcall)
    · intro id hne
      have hne' : id ≠ uuid := by
        intro heq
        apply hne
        split_ifs <;> exact heq
      rw [List.mem_cons]
      exact ⟨fun hmem => hmem.resolve_left hne', .inr⟩
  exact hset

theorem step_ownId (hs : Sound j s) {a : Action} (h : step j s a = some s')
    (hid : ¬(id ∈ s'.registered ↔ id ∈ s.registered)) :
    a = .reap id ∨ ∃ u c, c.id = id ∧ OwnId s s' u c := by
  have hown : ∀ {u c}, OwnId s s' u c → ∃ u c, c.id = id ∧ OwnId s s' u c := by
    intro u c hc
    refine ⟨u, c, ?_, hc⟩
    by_contra hne
    exact hid (hc.2.2.2 id (Ne.symm hne))
  cases a with
  | allocateDatabase uuid isModule =>
    right
    simp only [step] at h
    split at h
    · cases h
    · cases h
      exact hown (ownId_allocate hs isModule)
  | bindWorkspaceOpen u =>
    simp only [step] at h
    split at h
    · cases h
      exact absurd Iff.rfl hid
    · cases h
  | answer u response =>
    simp only [step, answer] at h
    split at h
    · split_ifs at h
      cases h
      exact absurd Iff.rfl hid
    · cases h
      exact absurd Iff.rfl hid
    · cases h
  | finish u =>
    right
    simp only [step, finish] at h
    split at h
    · next d e hu =>
      cases h
      apply hown
      refine ownId_setCall rfl ?_ ?_
      · rw [hu]
        intro heq
        cases heq
      · intro id' hne
        exact mem_unregister_of_ne hne
    · next d r hu =>
      cases h
      apply hown
      refine ownId_setCall ?_ ?_ ?_
      · split_ifs <;> rfl
      · rw [hu]
        intro heq
        cases heq
      · intro id' hne
        split_ifs
        · rfl
        · exact mem_unregister_of_ne hne
    · cases h
  | moduleOpened u ok =>
    simp only [step] at h
    split at h
    · cases h
      exact absurd Iff.rfl hid
    · cases h
  | closeModule u =>
    right
    simp only [step] at h
    split at h
    · next d hu =>
      cases h
      apply hown
      refine ownId_setCall rfl ?_ ?_
      · rw [hu]
        intro heq
        cases heq
      · intro id' hne
        exact mem_unregister_of_ne hne
    · cases h
  | closeIdb d =>
    simp only [step] at h
    split_ifs at h
    cases h
    exact absurd Iff.rfl hid
  | takeHandle u =>
    simp only [step, takeHandle] at h
    split at h
    · split_ifs at h <;> cases h
      · exact absurd Iff.rfl hid
      · exact absurd Iff.rfl hid
    · cases h
  | release u result =>
    simp only [step, release] at h
    split at h
    · cases h
    · cases h
      exact absurd Iff.rfl hid
    · cases h
  | decide u =>
    simp only [step] at h
    split at h
    · cases h
      exact absurd Iff.rfl hid
    · cases h
  | remove u =>
    right
    simp only [step] at h
    split at h
    · next d found running remove hu =>
      cases h
      apply hown
      refine ownId_setCall ?_ ?_ ?_
      · split_ifs <;> rfl
      · rw [hu]
        intro heq
        cases heq
      · intro id' hne
        split_ifs
        · exact mem_unregister_of_ne hne
        · rfl
    · cases h
  | setLease d leased =>
    simp only [step] at h
    split_ifs at h
    cases h
    exact absurd Iff.rfl hid
  | settleTask d =>
    simp only [step] at h
    split_ifs at h
    cases h
    exact absurd Iff.rfl hid
  | reap d =>
    left
    simp only [step] at h
    split_ifs at h
    cases h
    by_contra hne
    apply hid
    apply mem_unregister_of_ne
    intro heq
    exact hne (heq ▸ rfl)

/-- The id of a completed open is registered exactly if its response carries it, up to a removal by a
close or the reaper; a completed close leaves the id only to a running task; and an id is registered and
removed by calls of its own. -/
theorem handles_exact (j : Serde) (hj : j.Faithful) (s : State) (h : Reachable (step j) initial s) :
    (∀ u id r, s.call u = some (.opened id (.ok r)) →
      (id ∈ s.registered ↔ carries j r id = true ∧ id ∉ s.taken)) ∧
    (∀ u id e, s.call u = some (.opened id (.error e)) → id ∉ s.registered) ∧
    (∀ u id found running, s.call u = some (.closed id found running) → id ∈ s.registered →
      found = false ∧ running = true) ∧
    (∀ a s' id, step j s a = some s' → ¬(id ∈ s'.registered ↔ id ∈ s.registered) →
      a = .reap id ∨ ∃ u c, c.id = id ∧ OwnId s s' u c) := by
  have hs := sound_of_reachable hj h
  refine ⟨?_, ?_, ?_, ?_⟩
  · intro u id r hu
    exact hs.holds u _ hu
  · intro u id e hu
    exact hs.holds u _ hu
  · intro u id found running hu
    exact hs.holds u _ hu
  · intro a s' id hstep hid
    exact step_ownId hs hstep hid

def memberLead : String := "\x7b\"database_id\":\""

def memberTrail : String := "\"\x7d"

def printMember (v : Value) : String := memberLead ++ (databaseId v).getD "" ++ memberTrail

def readMember (text : String) : Option Value :=
  let id := String.ofList ((text.toList.drop 16).dropLast.dropLast)
  if text = memberLead ++ id ++ memberTrail then some (.object [("database_id", .string id)]) else none

def memberSerde : Serde where
  fromStr := readMember
  toStringPretty := printMember
  toString := printMember

theorem readMember_printMember {v : Value} (h : databaseId v = some id) :
    (readMember (printMember v)).bind databaseId = some id := by
  have htext : printMember v = memberLead ++ id ++ memberTrail := by rw [printMember, h, Option.getD_some]
  have hlead : memberLead.toList.length = 16 := by decide
  have hid : String.ofList (((printMember v).toList.drop 16).dropLast.dropLast) = id := by
    rw [htext, String.toList_append, String.toList_append, List.append_assoc, List.drop_append_of_le_length hlead.ge,
      List.drop_of_length_le hlead.le, List.nil_append]
    have htrail : memberTrail.toList = ['"', '\x7d'] := by decide
    rw [htrail, List.dropLast_append_of_ne_nil (by simp)]
    simp
  rw [readMember, hid, if_pos htext]
  rfl

theorem memberSerde_faithful : memberSerde.Faithful where
  pretty := fun _ _ h => readMember_printMember h
  compact := fun _ _ h => readMember_printMember h

def openedResponse : CallToolResponse :=
  .complete { content := [.text "opened"], isError := none, metadata := none }

def openedWith (j : Serde) (id : String) : Option Call → Bool
  | some (.opened d (.ok r)) => d == id && carries j r id
  | _ => false

theorem openedWith_eq_true {c : Option Call} (h : openedWith j id c = true) :
    ∃ r, c = some (.opened id (.ok r)) ∧ carries j r id = true := by
  unfold openedWith at h
  split at h
  · next d r =>
    obtain ⟨hid, hcarries⟩ := (Bool.and_eq_true_iff ..).mp h
    rw [beq_iff_eq] at hid
    subst hid
    exact ⟨r, rfl, hcarries⟩
  · cases h

def openingRun : List Action := [.allocateDatabase "d" false, .answer 0 (.ok openedResponse), .finish 0]

theorem handles_exact_opened : ∃ (s : State) (r : CallToolResponse),
    s.call 0 = some (.opened "d" (.ok r)) ∧ carries memberSerde r "d" = true ∧ "d" ∈ s.registered := by
  have hrun : (run (step memberSerde) initial openingRun).any (fun s =>
      openedWith memberSerde "d" (s.call 0) && s.taken.isEmpty) = true := by
    decide +kernel
  obtain ⟨s, hs, hend⟩ := (Option.any_eq_true ..).mp hrun
  obtain ⟨hopened, htaken⟩ := (Bool.and_eq_true_iff ..).mp hend
  obtain ⟨r, hcall, hcarries⟩ := openedWith_eq_true hopened
  refine ⟨s, r, hcall, hcarries, ?_⟩
  apply ((handles_exact memberSerde memberSerde_faithful s ⟨openingRun, hs⟩).1 0 "d" r hcall).mpr
  rw [List.isEmpty_iff.mp htaken]
  exact ⟨hcarries, List.not_mem_nil⟩

def closingRun : List Action :=
  [.allocateDatabase "d" false, .setLease "d" true, .closeIdb "d", .takeHandle 1, .release 1 (.ok ()),
    .decide 1, .remove 1, .answer 0 (.ok openedResponse), .finish 0]

theorem closed_while_opening : ∃ (s : State) (r : CallToolResponse),
    Reachable (step memberSerde) initial s ∧ s.call 0 = some (.opened "d" (.ok r)) ∧
      carries memberSerde r "d" = true ∧ "d" ∉ s.registered := by
  have hrun : (run (step memberSerde) initial closingRun).any (fun s =>
      openedWith memberSerde "d" (s.call 0) && s.registered.isEmpty) = true := by
    decide +kernel
  obtain ⟨s, hs, hend⟩ := (Option.any_eq_true ..).mp hrun
  obtain ⟨hopened, hregistered⟩ := (Bool.and_eq_true_iff ..).mp hend
  obtain ⟨r, hcall, hcarries⟩ := openedWith_eq_true hopened
  refine ⟨s, r, ⟨closingRun, hs⟩, hcall, hcarries, ?_⟩
  rw [List.isEmpty_iff.mp hregistered]
  exact List.not_mem_nil

end IdaMcp.Router
