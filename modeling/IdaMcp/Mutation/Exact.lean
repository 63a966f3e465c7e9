import IdaMcp.Mutation.Selected

namespace IdaMcp.Mutation

open Foundation Text Callgraph Lookup Target Params

variable {σ : Type} {sdk : Sdk σ} {idb : σ → Option EditDb} {env : Env} {s : σ}

theorem openDb_eq_ok {db : EditDb} : openDb idb s = .ok db ↔ idb s = some db := by
  unfold openDb
  cases idb s with
  | none => exact iff_of_false nofun nofun
  | some found => rw [Except.ok.injEq, Option.some_inj]

def Resolved (idb : σ → Option EditDb) (env : Env) (spec : TargetSpec) (acts : EditDb → Address → Edit → Prop) (s : σ)
    (edit : Edit) (target : MutationTarget) : Prop :=
  ∃ db, idb s = some db ∧ ∃ found, resolveMutationTarget db env.database spec = .ok found ∧
    acts db found.1 edit ∧ target = { found.2 with address := hexText edit.address }

theorem resolved_address {db : EditDb} {database : Option String} {spec : TargetSpec}
    {found : Address × MutationTarget} (h : resolveMutationTarget db database spec = .ok found) :
    { found.2 with address := hexText found.1 } = found.2 := by
  obtain ⟨selector, base, symbol, -, -, htarget⟩ := resolveMutationTarget_eq_ok.mp h
  rw [htarget]

theorem aims_iff (hfloat : PrintsFloats env.json) {sel : Selection} {request : ToolRequest} {edit : Edit}
    {target : MutationTarget} (nameField : String) : Aims idb env sel request s edit target ↔
      ∃ addr, mutationTargetAddress env.json env.debug sel.address sel.name nameField = .ok addr ∧
        Resolved idb env ⟨addr, sel.name, request.offset⟩ (fun db a => Acts env db request a) s edit target := by
  obtain ⟨address, name⟩ := sel
  simp only [target_named hfloat, Resolved]
  constructor
  · rintro ⟨db, selector, base, symbol, a, hdb, hchooses, ha, hacts, rfl⟩
    cases hchooses with
    | given hnames =>
      rename_i value a₀
      refine ⟨some a₀, .inl ⟨value, a₀, rfl, rfl, rfl, hnames⟩, db, hdb,
        (a, ⟨_, _, _, _, hexText a, hexText a⟩), ?_, hacts, rfl⟩
      exact resolveMutationTarget_eq_ok.mpr ⟨_, _, _, .given a₀, ha, rfl⟩
    | named hne hbears =>
      rename_i query
      refine ⟨none, .inr ⟨rfl, rfl, query, rfl, hne⟩, db, hdb,
        (a, ⟨_, _, _, _, hexText a, hexText a⟩), ?_, hacts, rfl⟩
      exact resolveMutationTarget_eq_ok.mpr ⟨_, _, _, .named hbears, ha, rfl⟩
  · rintro ⟨addr, haddr, db, hdb, ⟨a, found⟩, hresolve, hacts, rfl⟩
    obtain ⟨selector, base, symbol, hselects, ha, rfl⟩ := resolveMutationTarget_eq_ok.mp hresolve
    obtain ⟨value, a₀, rfl, rfl, rfl, hnames⟩ | ⟨rfl, rfl, query, rfl, hne⟩ := haddr
    · cases hselects
      exact ⟨db, _, _, _, a, hdb, .given hnames, ha, hacts, rfl⟩
    · cases hselects
      rename_i hbears
      exact ⟨db, _, _, _, a, hdb, .named hne hbears, ha, hacts, rfl⟩

section Rules

abbrev Edits (sdk : Sdk σ) (prog : Run σ Report) (s : σ) (aim : Edit → MutationTarget → Prop) : Prop :=
  Prog.Performs sdk Truthful prog s aim

theorem edits_resolved {spec : TargetSpec} {next : EditDb → Address × MutationTarget → Run σ Report}
    {acts : EditDb → Address → Edit → Prop}
    (h : ∀ db a target, { target with address := hexText a } = target → Edits sdk (next db (a, target)) s
      fun edit target' => acts db a edit ∧ target' = { target with address := hexText edit.address }) :
    Edits sdk (do
      let db ← Prog.look (openDb idb)
      let found ← resolveMutationTarget db env.database spec
      next db found) s (Resolved idb env spec acts s) := by
  refine Prog.Performs.congr (Prog.Performs.look fun db hdb => Prog.Performs.lift fun found hfound =>
    h db found.1 found.2 (resolved_address hfound)) ?_
  intro edit target
  simp only [openDb_eq_ok]
  rfl

theorem edits_at {a : Address} {target : MutationTarget} (htarget : { target with address := hexText a } = target)
    {edit : Edit} {next : edit.Out → Run σ Report} {acts : Edit → Prop} (hacts : ∀ other, acts other ↔ other = edit)
    (hat : edit.address = a) (report : edit.Out → Report) (hnext : ∀ out, next out = pure (report out))
    (hreport : ∀ out, (report out).target = some target ∧
      ∀ address, (report out).address = some address → address = hexText a) :
    Edits sdk (sdk.perform edit >>= next) s
      fun other target' => acts other ∧ target' = { target with address := hexText other.address } := by
  have hedits : Edits sdk (sdk.perform edit >>= next) s fun other target' => other = edit ∧ target' = target := by
    apply Prog.Performs.act
    intro out s
    refine ⟨report out, by rw [hnext]; rfl, (hreport out).1, ?_⟩
    intro address haddress
    rw [(hreport out).2 address haddress, ← htarget]
  refine hedits.congr ?_
  intro other target'
  rw [hacts]
  apply and_congr_right
  rintro rfl
  rw [hat, htarget]

theorem edits_refused {target : MutationTarget} {acts : Edit → Prop} (e : ToolError) (hacts : ∀ edit, ¬ acts edit) :
    Edits sdk (liftM (.error e : Except ToolError Report)) s
      fun edit target' => acts edit ∧ target' = { target with address := hexText edit.address } :=
  .fails ⟨e, rfl⟩ fun edit _ h => hacts edit h.1

theorem edits_congr {prog : Run σ Report} {spec : TargetSpec} {acts acts' : EditDb → Address → Edit → Prop}
    (h : Edits sdk prog s (Resolved idb env spec acts s)) (hacts : ∀ db a edit, acts db a edit ↔ acts' db a edit) :
    Edits sdk prog s (Resolved idb env spec acts' s) := by
  obtain rfl : acts = acts' := by
    funext db a edit
    exact propext (hacts db a edit)
  exact h

theorem edits_checked {β : Type} {check : Except ToolError β} {next : β → Run σ Report} {spec : TargetSpec}
    {acts : β → EditDb → Address → Edit → Prop}
    (h : ∀ value, check = .ok value → Edits sdk (next value) s (Resolved idb env spec (acts value) s)) :
    Edits sdk (liftM check >>= next) s
      (Resolved idb env spec (fun db a edit => ∃ value, check = .ok value ∧ acts value db a edit) s) := by
  refine Prog.Performs.congr (Prog.Performs.lift h) ?_
  intro edit target
  constructor
  · rintro ⟨value, hvalue, db, hdb, found, hfound, hacts, htarget⟩
    exact ⟨db, hdb, found, hfound, ⟨value, hvalue, hacts⟩, htarget⟩
  · rintro ⟨db, hdb, found, hfound, ⟨value, hvalue, hacts⟩, htarget⟩
    exact ⟨value, hvalue, db, hdb, found, hfound, hacts, htarget⟩

theorem edits_chosen (hfloat : PrintsFloats env.json) {sel : Selection} {request : ToolRequest} {nameField : String}
    {next : Option Address → Run σ Report} (h : ∀ addr, Edits sdk (next addr) s
      (Resolved idb env ⟨addr, sel.name, request.offset⟩ (fun db a => Acts env db request a) s)) :
    Edits sdk (do
      let addr ← mutationTargetAddress env.json env.debug sel.address sel.name nameField
      next addr) s (Aims idb env sel request s) := by
  refine Prog.Performs.congr (Prog.Performs.lift fun addr _ => h addr) ?_
  intro edit target
  exact (aims_iff hfloat nameField).symm

end Rules

/-! The handlers. -/

theorem handleSetComments_edits (spec : TargetSpec) (comment : String) (repeatable : Option Bool) (offset : Option ℤ) :
    Edits sdk (handleSetComments sdk idb env spec comment (repeatable.getD false)) s
      (Resolved idb env spec (fun db a => Acts env db (.setComments comment repeatable offset) a) s) := by
  unfold handleSetComments
  apply edits_resolved
  intro db a target htarget
  dsimp only
  split_ifs with hrepeatable
  · obtain rfl : repeatable = some true := by
      simpa [Option.getD_eq_iff] using hrepeatable
    refine edits_at htarget ?_ rfl _ (fun _ => rfl) fun _ => ⟨rfl, by rintro _ ⟨⟩; rfl⟩
    intro other
    constructor
    · rintro ⟨⟩
      · contradiction
      · rfl
    · rintro rfl
      exact .setCmtWith
  · refine edits_at htarget ?_ rfl _ (fun _ => rfl) fun _ => ⟨rfl, by rintro _ ⟨⟩; rfl⟩
    intro other
    constructor
    · rintro ⟨⟩
      · rfl
      · simp at hrepeatable
    · rintro rfl
      exact .setCmt (by rintro rfl; simp at hrepeatable)

theorem handleRename_edits (spec : TargetSpec) (name : String) (flags : ℤ) :
    Edits sdk (handleRename sdk idb env spec name flags) s (Resolved idb env spec
      (fun _ a edit => edit = if flags = 0 then .setName a name else .setNameWithFlags a name flags) s) := by
  unfold handleRename
  apply edits_resolved
  intro db a target htarget
  dsimp only
  split_ifs
  · exact edits_at htarget (fun _ => Iff.rfl) rfl _ (fun _ => rfl) fun _ => ⟨rfl, by rintro _ ⟨⟩; rfl⟩
  · exact edits_at htarget (fun _ => Iff.rfl) rfl _ (fun _ => rfl) fun _ => ⟨rfl, by rintro _ ⟨⟩; rfl⟩

theorem handlePatchBytes_edits (spec : TargetSpec) (bytes : List UInt8) :
    Edits sdk (handlePatchBytes sdk idb env spec bytes) s
      (Resolved idb env spec (fun _ a edit => edit = .patchBytes a bytes) s) := by
  unfold handlePatchBytes
  apply edits_resolved
  intro db a target htarget
  exact edits_at htarget (fun _ => Iff.rfl) rfl _ (fun _ => rfl) fun _ => ⟨rfl, by rintro _ ⟨⟩; rfl⟩

theorem handlePatchAsm_edits (spec : TargetSpec) (line : String) (offset : Option ℤ) :
    Edits sdk (handlePatchAsm sdk idb env spec line) s
      (Resolved idb env spec (fun db a => Acts env db (.patchAsm line offset) a) s) := by
  unfold handlePatchAsm
  apply edits_resolved
  intro db a target htarget
  dsimp only
  cases hline : db.assembleLine a line with
  | error e =>
    refine .fails ⟨_, rfl⟩ ?_
    rintro edit _ ⟨hacts, -⟩
    cases hacts with
    | patchAsm h =>
      rw [hline] at h
      cases h
  | ok bytes =>
    refine edits_at htarget ?_ rfl _ (fun _ => rfl) fun _ => ⟨rfl, by rintro _ ⟨⟩; rfl⟩
    intro other
    constructor
    · intro hacts
      cases hacts with
      | patchAsm h =>
        obtain rfl := Except.ok.inj (hline.symm.trans h)
        rfl
    · rintro rfl
      exact .patchAsm hline

theorem handleApplyTypes_edits (spec : TargetSpec) (offset stackOffset : Option ℤ)
    (stackName decl typeName : Option String) (relaxed delay strict : Option Bool) :
    Edits sdk (handleApplyTypes sdk idb env spec stackOffset stackName decl typeName (relaxed.getD false)
      (delay.getD false) (strict.getD false)) s (Resolved idb env spec (fun db a =>
        Acts env db (.applyTypes offset stackOffset stackName decl typeName relaxed delay strict) a) s) := by
  unfold handleApplyTypes
  apply edits_resolved
  intro db a target htarget
  dsimp only
  split_ifs with hstack
  · have hstack : stackOffset ≠ none ∨ stackName ≠ none := by
      simpa [Option.isSome_iff_ne_none] using hstack
    cases decl with
    | none =>
      apply edits_refused
      rintro edit ⟨⟩
      simp at hstack
    | some decl =>
      refine edits_at htarget ?_ rfl (stackReport a · target) (fun _ => rfl) fun _ => ⟨rfl, by rintro _ ⟨⟩; rfl⟩
      intro other
      constructor
      · rintro ⟨⟩
        · rfl
        · simp at hstack
      · rintro rfl
        exact .stackVarType hstack
  · obtain ⟨rfl, rfl⟩ : stackOffset = none ∧ stackName = none := by
      simpa using hstack
    match decl, typeName with
    | some decl, typeName =>
      refine edits_at htarget ?_ rfl _ (fun _ => rfl) fun _ => ⟨rfl, by rintro _ ⟨⟩; rfl⟩
      intro other
      constructor
      · rintro ⟨⟩
        · rename_i h
          simp at h
        · rfl
      · rintro rfl
        exact .declType
    | none, some typeName =>
      refine edits_at htarget ?_ rfl _ (fun _ => rfl) fun _ => ⟨rfl, by rintro _ ⟨⟩; rfl⟩
      intro other
      constructor
      · rintro ⟨⟩
        rfl
      · rintro rfl
        exact .namedType
    | none, none =>
      apply edits_refused
      rintro edit ⟨⟩

theorem handleDeclareStack_edits (addr : Option Address) (name : Option String) (offset : ℤ) (varName : Option String)
    (decl : String) (relaxed : Option Bool) :
    Edits sdk (handleDeclareStack sdk idb env ⟨addr, name, offset⟩ offset varName decl (relaxed.getD false)) s
      (Resolved idb env ⟨addr, name, 0⟩ (fun db a => Acts env db (.declareStack offset varName decl relaxed) a) s) := by
  unfold handleDeclareStack
  apply edits_resolved
  intro db a target htarget
  refine edits_at htarget ?_ rfl (stackReport a · target) (fun _ => rfl) fun _ => ⟨rfl, by rintro _ ⟨⟩; rfl⟩
  intro other
  constructor
  · rintro ⟨⟩
    rfl
  · rintro rfl
    exact .declareStack

theorem handleDeleteStack_edits (addr : Option Address) (name : Option String) (offset : Option ℤ)
    (varName : Option String) : Edits sdk (handleDeleteStack sdk idb env ⟨addr, name, 0⟩ offset varName) s
      (Resolved idb env ⟨addr, name, 0⟩ (fun db a => Acts env db (.deleteStack offset varName) a) s) := by
  unfold handleDeleteStack
  by_cases hgiven : offset = none ∧ varName = none
  · obtain ⟨rfl, rfl⟩ := hgiven
    refine .fails ?_ ?_
    · cases hdb : idb s with
      | none => exact ⟨.noDatabaseOpen, by simp only [Prog.look_bind_run, openDb, hdb]⟩
      | some db => exact ⟨_, by simp only [Prog.look_bind_run, openDb, hdb]; rfl⟩
    · rintro edit target ⟨db, -, found, -, ⟨⟩, -⟩
      rename_i h
      simp at h
  · have hrefuse : (offset.isNone && varName.isNone) = false := by
      simpa [Option.isNone_iff_eq_none, Option.isSome_iff_ne_none] using hgiven
    rw [hrefuse]
    apply edits_resolved
    intro db a target htarget
    refine edits_at htarget ?_ rfl (stackReport a · target) (fun _ => rfl) fun _ => ⟨rfl, by rintro _ ⟨⟩; rfl⟩
    intro other
    constructor
    · rintro ⟨⟩
      rfl
    · rintro rfl
      exact .deleteStack (not_and_or.mp hgiven)

/-! The handlers that decompile. -/

theorem decompileMutationTarget_eq_ok {idb : Option EditDb} {database : Option String} {spec : TargetSpec} {func : Func}
    {cfunc : CFunction} {target : MutationTarget} :
    decompileMutationTarget idb database spec = .ok (func, cfunc, target) ↔
      ∃ db, idb = some db ∧ ∃ found, resolveMutationTarget db database spec = .ok found ∧
        Decompiles db found.1 func cfunc ∧ target = actingAt found.2 func.startAddress := by
  unfold decompileMutationTarget
  cases idb with
  | none => exact iff_of_false nofun nofun
  | some db =>
    simp only [Option.some_inj, exists_eq_left']
    cases hresolve : resolveMutationTarget db database spec with
    | error e => exact iff_of_false nofun nofun
    | ok found =>
      simp only [Except.ok.injEq, exists_eq_left', Decompiles]
      cases havailable : db.decompilerAvailable with
      | false => exact iff_of_false nofun nofun
      | true =>
        cases hat : db.functionAt found.1 with
        | none =>
          apply iff_of_false
          · simp [bind, Except.bind, hat]
          · nofun
        | some found' =>
          cases hdecompile : db.decompile found' with
          | error e =>
            apply iff_of_false
            · simp [bind, Except.bind, hat, hdecompile]
            · rintro ⟨⟨-, ⟨⟩, h⟩, -⟩
              rw [hdecompile] at h
              cases h
          | ok cfunc' =>
            simp only [bind, Except.bind, hat, hdecompile]
            constructor
            · rintro ⟨⟩
              exact ⟨⟨trivial, rfl, hdecompile⟩, rfl⟩
            · rintro ⟨⟨-, ⟨⟩, h⟩, rfl⟩
              obtain rfl := Except.ok.inj (hdecompile.symm.trans h)
              rfl

theorem decompileTarget_eq_ok {idb : Option EditDb} {database : Option String} {spec : TargetSpec} {func : Func}
    {cfunc : CFunction} {target : MutationTarget} :
    decompileTarget idb database spec = .ok (func, cfunc, target) ↔
      decompileMutationTarget idb database spec = .ok (func, cfunc, target) ∧
        ∃ count, cfunc.localVariableCount = .ok count ∧ count ≤ maxLocals := by
  unfold decompileTarget
  cases decompileMutationTarget idb database spec with
  | error e => exact iff_of_false nofun nofun
  | ok found =>
    obtain ⟨func', cfunc', target'⟩ := found
    cases hcount : cfunc'.localVariableCount with
    | error e =>
      apply iff_of_false
      · simp [bind, Except.bind, hcount]
      · rintro ⟨⟨⟩, count, h, -⟩
        rw [hcount] at h
        cases h
    | ok count =>
      simp only [bind, Except.bind, hcount]
      split_ifs with hmany
      · apply iff_of_false
        · rintro ⟨⟩
        · rintro ⟨⟨⟩, count', h, hle⟩
          obtain rfl := Except.ok.inj (hcount.symm.trans h)
          omega
      · constructor
        · rintro ⟨⟩
          exact ⟨rfl, count, hcount, by omega⟩
        · rintro ⟨⟨⟩, -⟩
          rfl

theorem edits_decompiled {view : Option EditDb → Option String → TargetSpec → Except ToolError (Func × CFunction × MutationTarget)}
    {fits : CFunction → Prop} (hview : ∀ {idb database spec func cfunc target},
      view idb database spec = .ok (func, cfunc, target) ↔
        decompileMutationTarget idb database spec = .ok (func, cfunc, target) ∧ fits cfunc)
    {spec : TargetSpec} {next : Func × CFunction × MutationTarget → Run σ Report} {acts : Func → CFunction → Edit → Prop}
    (h : ∀ func cfunc target, { target with address := hexText func.startAddress } = target →
      Edits sdk (next (func, cfunc, target)) s
        fun edit target' => acts func cfunc edit ∧ target' = { target with address := hexText edit.address }) :
    Edits sdk (do
      let found ← Prog.look fun s => view (idb s) env.database spec
      next found) s (Resolved idb env spec
        (fun db a edit => ∃ func cfunc, Decompiles db a func cfunc ∧ fits cfunc ∧ acts func cfunc edit) s) := by
  have haim : Edits sdk (do
      let found ← Prog.look fun s => view (idb s) env.database spec
      next found) s fun edit target => ∃ found, view (idb s) env.database spec = .ok found ∧
        acts found.1 found.2.1 edit ∧ target = { found.2.2 with address := hexText edit.address } := by
    apply Prog.Performs.look
    rintro ⟨func, cfunc, target⟩ hfound
    apply h
    obtain ⟨db, -, found, -, -, rfl⟩ := decompileMutationTarget_eq_ok.mp (hview.mp hfound).1
    rfl
  refine haim.congr ?_
  intro edit target
  constructor
  · rintro ⟨⟨func, cfunc, target⟩, hfound, hacts, rfl⟩
    obtain ⟨hfound, hfits⟩ := hview.mp hfound
    obtain ⟨db, hdb, found, hresolve, hdecompiles, rfl⟩ := decompileMutationTarget_eq_ok.mp hfound
    exact ⟨db, hdb, found, hresolve, ⟨func, cfunc, hdecompiles, hfits, hacts⟩, rfl⟩
  · rintro ⟨db, hdb, found, hresolve, ⟨func, cfunc, hdecompiles, hfits, hacts⟩, rfl⟩
    have hfound := decompileMutationTarget_eq_ok.mpr ⟨db, hdb, found, hresolve, hdecompiles, rfl⟩
    exact ⟨_, hview.mpr ⟨hfound, hfits⟩, hacts, rfl⟩

theorem handleSetPseudocodeComment_edits (spec : TargetSpec) (locator comment : String) :
    Edits sdk (handleSetPseudocodeComment sdk idb env spec locator comment) s (Resolved idb env spec
      (fun db a edit => ∃ func cfunc, Decompiles db a func cfunc ∧ True ∧
        edit = .setPseudocodeComment func.startAddress locator comment) s) := by
  unfold handleSetPseudocodeComment
  apply edits_decompiled (and_true _).symm.to_iff
  intro func cfunc target htarget
  exact edits_at htarget (fun _ => Iff.rfl) rfl _ (fun _ => rfl) fun _ => ⟨rfl, by rintro _ ⟨⟩⟩

theorem edits_selected {selector : LocalVariableSelector} {cfunc : CFunction} {target : MutationTarget}
    {edit : ℕ → Edit} {next : ℕ × LocalVariableInfo → Run σ Report}
    (h : ∀ index info, Edits sdk (next (index, info)) s
      fun other target' => other = edit index ∧ target' = { target with address := hexText other.address }) :
    Edits sdk (liftM (selectedLocal env.texts cfunc selector) >>= next) s
      fun other target' => (∃ vars index, Locals cfunc vars ∧ Picks selector vars index ∧ other = edit index) ∧
        target' = { target with address := hexText other.address } := by
  refine Prog.Performs.congr (Prog.Performs.lift fun found _ => h found.1 found.2) ?_
  intro other target'
  constructor
  · rintro ⟨⟨index, info⟩, hselected, hother, htarget⟩
    obtain ⟨vars, hvars, hpicks⟩ := selectedLocal_ok.mp ⟨info, hselected⟩
    exact ⟨⟨vars, index, hvars, hpicks, hother⟩, htarget⟩
  · rintro ⟨⟨vars, index, hvars, hpicks, hother⟩, htarget⟩
    obtain ⟨info, hselected⟩ := selectedLocal_ok.mpr ⟨vars, hvars, hpicks⟩
    exact ⟨(index, info), hselected, hother, htarget⟩

theorem localAt_iff {db : EditDb} {a : Address} {selector : LocalVariableSelector} {edit : Edit}
    {of : Func → ℕ → Edit} :
    (∃ func cfunc, Decompiles db a func cfunc ∧ (∃ count, cfunc.localVariableCount = .ok count ∧ count ≤ maxLocals) ∧
      ∃ vars index, Locals cfunc vars ∧ Picks selector vars index ∧ edit = of func index) ↔
      ∃ func index, LocalAt db a selector func index ∧ edit = of func index := by
  constructor
  · rintro ⟨func, cfunc, hdecompiles, ⟨count, hcount, hle⟩, vars, index, hvars, hpicks, hedit⟩
    obtain rfl := Except.ok.inj (hcount.symm.trans hvars.1)
    exact ⟨func, index, ⟨cfunc, vars, hdecompiles, hvars, hle, hpicks⟩, hedit⟩
  · rintro ⟨func, index, ⟨cfunc, vars, hdecompiles, hvars, hle, hpicks⟩, hedit⟩
    exact ⟨func, cfunc, hdecompiles, ⟨_, hvars.1, hle⟩, vars, index, hvars, hpicks, hedit⟩

theorem handleRenameLvar_edits (spec : TargetSpec) (selector : LocalVariableSelector) (newName : String) :
    Edits sdk (handleRenameLvar sdk idb env spec selector newName) s (Resolved idb env spec
      (fun db a edit => Bounded newName maxNameBytes ∧ ∃ func index, LocalAt db a selector func index ∧
        edit = .renameLocalVariable func.startAddress index newName) s) := by
  unfold handleRenameLvar
  refine edits_congr (edits_checked fun _ _ => edits_decompiled decompileTarget_eq_ok fun func cfunc target htarget =>
    edits_selected fun index info => edits_at htarget (fun _ => Iff.rfl) rfl _ (fun _ => rfl)
      fun _ => ⟨rfl, by rintro _ ⟨⟩⟩) ?_
  intro db a edit
  rw [exists_and_right, ← localAt_iff]
  simp only [checkedText_eq_ok, exists_const]

theorem handleSetLvarType_edits (spec : TargetSpec) (selector : LocalVariableSelector) (decl : String) :
    Edits sdk (handleSetLvarType sdk idb env spec selector decl) s (Resolved idb env spec
      (fun db a edit => Bounded decl maxDeclBytes ∧ ∃ func index, LocalAt db a selector func index ∧
        edit = .setLocalVariableType func.startAddress index decl) s) := by
  unfold handleSetLvarType
  refine edits_congr (edits_checked fun _ _ => edits_decompiled decompileTarget_eq_ok fun func cfunc target htarget =>
    edits_selected fun index info => edits_at htarget (fun _ => Iff.rfl) rfl _ (fun _ => rfl)
      fun _ => ⟨rfl, by rintro _ ⟨⟩⟩) ?_
  intro db a edit
  rw [exists_and_right, ← localAt_iff]
  simp only [checkedText_eq_ok, exists_const]

theorem pullTarget_eq_ok {db : EditDb} {spec : TargetSpec} {func : Func} {resolved : Option MutationTarget} :
    pullTarget env db spec true = .ok (func, resolved) ↔
      ∃ found, resolveMutationTarget db env.database spec = .ok found ∧ db.functionAt found.1 = some func ∧
        resolved = some found.2 := by
  unfold pullTarget
  cases resolveMutationTarget db env.database spec with
  | error e => exact iff_of_false nofun nofun
  | ok found =>
    simp only [Except.ok.injEq, exists_eq_left', if_true, Except.map, bind, Except.bind]
    cases db.functionAt found.1 with
    | none => exact iff_of_false nofun nofun
    | some func' => simp [pure, Except.pure, eq_comm]

theorem pulled_edits (db : EditDb) {spec : TargetSpec} {force : Bool} (pulled : Func × Option MutationTarget)
    (hpulled : pullTarget env db spec true = .ok pulled) :
    Edits sdk (do
      let result ← sdk.perform (.pull pulled.1.startAddress true force)
      let currentName ← Prog.look fun s =>
        .ok (((idb s).bind fun db => db.functionAt pulled.1.startAddress).bind Func.name)
      pure (.pull ⟨hexText pulled.1.startAddress, statusName result.status, result, force, pulled.1.name, currentName⟩
        (pulled.2.map (actingAt · pulled.1.startAddress)))) s
      fun edit target => edit = .pull pulled.1.startAddress true force ∧
        some target = pulled.2.map (actingAt · pulled.1.startAddress) := by
  obtain ⟨func, resolved⟩ := pulled
  obtain ⟨found, -, -, rfl⟩ := pullTarget_eq_ok.mp hpulled
  simp only [Option.map_some, Option.some_inj]
  refine Prog.Performs.act fun out s => ⟨_, rfl, rfl, ?_⟩
  rintro address ⟨⟩
  rfl

theorem handlePull_edits (spec : TargetSpec) (force : Bool) :
    Edits sdk (handlePull sdk idb env spec true force) s (Resolved idb env spec
      (fun db a edit => env.allowLumina = true ∧ ∃ func, db.functionAt a = some func ∧
        edit = .pull func.startAddress true force) s) := by
  unfold handlePull
  cases hallow : env.allowLumina with
  | false =>
    refine .fails ⟨_, rfl⟩ ?_
    rintro edit target ⟨db, -, found, -, ⟨⟨⟩, -⟩, -⟩
  | true =>
    rw [if_neg (by decide)]
    refine Prog.Performs.congr (Prog.Performs.look fun db hdb => Prog.Performs.lift fun pulled hpulled =>
      pulled_edits db pulled hpulled) ?_
    intro edit target
    constructor
    · rintro ⟨db, hdb, ⟨func, resolved⟩, hpulled, rfl, htarget⟩
      obtain ⟨found, hresolve, hat, rfl⟩ := pullTarget_eq_ok.mp hpulled
      obtain rfl := Option.some.inj htarget
      exact ⟨db, openDb_eq_ok.mp hdb, found, hresolve, ⟨rfl, func, hat, rfl⟩, rfl⟩
    · rintro ⟨db, hdb, found, hresolve, ⟨-, func, hat, rfl⟩, rfl⟩
      refine ⟨db, openDb_eq_ok.mpr hdb, (func, some found.2), pullTarget_eq_ok.mpr ⟨found, hresolve, hat, rfl⟩, rfl, rfl⟩

/-! The tools. -/

theorem rename_edits (hfloat : PrintsFloats env.json) (sel : Selection) (name : String) (flags : Option ℤ) :
    Edits sdk (rename sdk idb env sel name flags) s (Aims idb env sel (.rename name flags) s) := by
  apply edits_chosen hfloat
  intro addr
  refine edits_congr (edits_checked fun parsed _ => handleRename_edits _ name (parsed.getD 0)) ?_
  intro db a edit
  simp only [parseOptional_eq_ok]
  constructor
  · rintro ⟨parsed, ⟨rfl, hbounds⟩, rfl⟩
    split_ifs with hzero
    · exact .setName hzero
    · cases parsed with
      | none => exact absurd rfl hzero
      | some flags => exact .setNameWithFlags hzero (hbounds flags rfl)
  · rintro ⟨⟩
    · rename_i h
      refine ⟨flags, ⟨rfl, ?_⟩, by rw [if_pos h]⟩
      rintro v rfl
      rw [Option.getD_some] at h
      omega
    · rename_i flags hne hbounds
      refine ⟨some flags, ⟨rfl, ?_⟩, by rw [Option.getD_some, if_neg hne]⟩
      rintro v ⟨⟩
      exact hbounds

theorem patch_edits (hfloat : PrintsFloats env.json) (sel : Selection) (value : Params.Value) (offset : Option ℤ) :
    Edits sdk (patch sdk idb env sel value offset) s (Aims idb env sel (.patch value offset) s) := by
  apply edits_chosen hfloat
  intro addr
  refine edits_congr (edits_checked fun bytes _ => handlePatchBytes_edits _ bytes) ?_
  intro db a edit
  constructor
  · rintro ⟨bytes, hbytes, rfl⟩
    exact .patch hbytes
  · rintro ⟨⟩
    rename_i bytes hbytes
    exact ⟨bytes, hbytes, rfl⟩

theorem renameLvar_edits (hfloat : PrintsFloats env.json) (sel : Selection) (lvarName lvarLocator : Option String)
    (newName : String) (timeoutSecs : Option ℤ) :
    Edits sdk (renameLvar sdk idb env sel lvarName lvarLocator newName timeoutSecs) s
      (Aims idb env sel (.renameLvar lvarName lvarLocator newName timeoutSecs) s) := by
  apply edits_chosen hfloat
  intro addr
  refine edits_congr (edits_checked fun _ _ => edits_checked fun selector _ =>
    handleRenameLvar_edits _ selector newName) ?_
  intro db a edit
  simp only [exists_and_right, decompilerTimeout_ok, localSelector_eq_ok]
  constructor
  · rintro ⟨htimeout, selector, hselector, hname, func, index, hlocal, rfl⟩
    exact .renameLvar hselector hname htimeout hlocal
  · rintro ⟨⟩
    rename_i selector func index hselector hname htimeout hlocal
    exact ⟨htimeout, selector, hselector, hname, func, index, hlocal, rfl⟩

theorem setLvarType_edits (hfloat : PrintsFloats env.json) (sel : Selection) (lvarName lvarLocator : Option String)
    (decl : String) (timeoutSecs : Option ℤ) :
    Edits sdk (setLvarType sdk idb env sel lvarName lvarLocator decl timeoutSecs) s
      (Aims idb env sel (.setLvarType lvarName lvarLocator decl timeoutSecs) s) := by
  apply edits_chosen hfloat
  intro addr
  refine edits_congr (edits_checked fun _ _ => edits_checked fun selector _ =>
    handleSetLvarType_edits _ selector decl) ?_
  intro db a edit
  simp only [exists_and_right, decompilerTimeout_ok, localSelector_eq_ok]
  constructor
  · rintro ⟨htimeout, selector, hselector, hdecl, func, index, hlocal, rfl⟩
    exact .setLvarType hselector hdecl htimeout hlocal
  · rintro ⟨⟩
    rename_i selector func index hselector hdecl htimeout hlocal
    exact ⟨htimeout, selector, hselector, hdecl, func, index, hlocal, rfl⟩

theorem checkPseudocodeComment_ok {locator comment : String} :
    (∃ u, checkPseudocodeComment locator comment = .ok u) ↔ Bounded locator maxCommentLocatorBytes ∧
      comment.utf8ByteSize ≤ maxCommentBytes ∧ '\x00' ∉ comment.toList := by
  unfold checkPseudocodeComment
  simp only [checked_then, exists_and_left]
  apply and_congr_right
  intro _
  split_ifs with h
  · apply iff_of_false
    · rintro ⟨u, ⟨⟩⟩
    · rintro ⟨hle, hnul⟩
      obtain h | h := h
      · omega
      · exact hnul h
  · rw [not_or, not_lt] at h
    exact iff_of_true ⟨(), rfl⟩ h

theorem setPseudocodeComment_edits (hfloat : PrintsFloats env.json) (sel : Selection) (locator comment : String)
    (timeoutSecs : Option ℤ) : Edits sdk (setPseudocodeComment sdk idb env sel locator comment timeoutSecs) s
      (Aims idb env sel (.setPseudocodeComment locator comment timeoutSecs) s) := by
  apply edits_chosen hfloat
  intro addr
  refine edits_congr (edits_checked fun _ _ => edits_checked fun _ _ =>
    handleSetPseudocodeComment_edits _ locator comment) ?_
  intro db a edit
  simp only [exists_and_right, checkPseudocodeComment_ok, decompilerTimeout_ok]
  constructor
  · rintro ⟨⟨hlocator, hcomment⟩, htimeout, func, ⟨cfunc, hdecompiles⟩, -, rfl⟩
    exact .setPseudocodeComment hlocator hcomment htimeout hdecompiles
  · rintro ⟨⟩
    rename_i func cfunc hlocator hcomment htimeout hdecompiles
    exact ⟨⟨hlocator, hcomment⟩, htimeout, func, ⟨cfunc, hdecompiles⟩, trivial, rfl⟩

theorem luminaApply_edits (hfloat : PrintsFloats env.json) (sel : Selection) (offset : Option ℤ) (force : Option Bool)
    (timeoutSecs : Option ℤ) : Edits sdk (luminaApply sdk idb env sel offset force timeoutSecs) s
      (Aims idb env sel (.luminaApply offset force timeoutSecs) s) := by
  have hvalid {edit : Edit} {target : MutationTarget}
      (h : Aims idb env sel (.luminaApply offset force timeoutSecs) s edit target) :
      ∀ secs, timeoutSecs = some secs → 0 ≤ secs ∧ secs < 2 ^ 64 := by
    obtain ⟨db, _, _, _, a, -, -, -, hacts, -⟩ := h
    cases hacts with
    | pull _ htimeout => exact htimeout
  unfold luminaApply
  by_cases htimeout : ∀ secs, timeoutSecs = some secs → 0 ≤ secs ∧ secs < 2 ^ 64
  · rw [parseOptional_eq_ok.mpr ⟨rfl, htimeout⟩, Prog.lift_ok_bind]
    apply edits_chosen hfloat
    intro addr
    refine edits_congr (handlePull_edits _ (force.getD false)) ?_
    intro db a edit
    constructor
    · rintro ⟨hallow, func, hat, rfl⟩
      exact .pull hallow htimeout hat
    · rintro ⟨⟩
      rename_i func hallow _ hat
      exact ⟨hallow, func, hat, rfl⟩
  · refine .fails ?_ fun edit target h => htimeout (hvalid h)
    cases hparse : parseOptional "u64" 0 (2 ^ 64) timeoutSecs "timeout_secs" with
    | error e => exact ⟨e, rfl⟩
    | ok parsed => exact absurd (parseOptional_eq_ok.mp hparse).2 htimeout

theorem call_edits (hfloat : PrintsFloats env.json) (sel : Selection) (request : ToolRequest) :
    Edits sdk (call sdk idb env sel request) s (Aims idb env sel request s) := by
  cases request with
  | rename name flags => exact rename_edits hfloat sel name flags
  | patch value offset => exact patch_edits hfloat sel value offset
  | patchAsm line offset => exact edits_chosen hfloat fun _ => handlePatchAsm_edits _ line offset
  | setComments comment repeatable offset =>
    exact edits_chosen hfloat fun _ => handleSetComments_edits _ comment repeatable offset
  | applyTypes offset stackOffset stackName decl typeName relaxed delay strict =>
    exact edits_chosen hfloat fun _ =>
      handleApplyTypes_edits _ offset stackOffset stackName decl typeName relaxed delay strict
  | declareStack offset varName decl relaxed =>
    exact edits_chosen hfloat fun addr => handleDeclareStack_edits addr sel.name offset varName decl relaxed
  | deleteStack offset varName =>
    exact edits_chosen hfloat fun addr => handleDeleteStack_edits addr sel.name offset varName
  | renameLvar lvarName lvarLocator newName timeoutSecs =>
    exact renameLvar_edits hfloat sel lvarName lvarLocator newName timeoutSecs
  | setLvarType lvarName lvarLocator decl timeoutSecs =>
    exact setLvarType_edits hfloat sel lvarName lvarLocator decl timeoutSecs
  | setPseudocodeComment locator comment timeoutSecs =>
    exact setPseudocodeComment_edits hfloat sel locator comment timeoutSecs
  | luminaApply offset force timeoutSecs => exact luminaApply_edits hfloat sel offset force timeoutSecs

/-! One edit, at one address. -/

theorem Picks.unique {selector : LocalVariableSelector} {vars : List LocalVariable} {index index' : ℕ}
    (h : Picks selector vars index) (h' : Picks selector vars index') : index = index' := by
  obtain ⟨hindex, hchosen, -⟩ := h
  obtain ⟨-, -, honly⟩ := h'
  exact honly index hindex hchosen

theorem Locals.unique {cfunc : CFunction} {vars vars' : List LocalVariable} (h : Locals cfunc vars)
    (h' : Locals cfunc vars') : vars = vars' := by
  apply List.ext_getElem (Except.ok.inj (h.1.symm.trans h'.1))
  intro index hindex hindex'
  exact Option.some.inj (Except.ok.inj ((h.2 index hindex).symm.trans (h'.2 index hindex')))

theorem LocalAt.unique {db : EditDb} {a : Address} {selector : LocalVariableSelector} {func func' : Func}
    {index index' : ℕ} (h : LocalAt db a selector func index) (h' : LocalAt db a selector func' index') :
    func = func' ∧ index = index' := by
  obtain ⟨cfunc, vars, ⟨-, hat, hdecompile⟩, hvars, -, hpicks⟩ := h
  obtain ⟨cfunc', vars', ⟨-, hat', hdecompile'⟩, hvars', -, hpicks'⟩ := h'
  obtain rfl := Option.some.inj (hat.symm.trans hat')
  obtain rfl := Except.ok.inj (hdecompile.symm.trans hdecompile')
  obtain rfl := hvars.unique hvars'
  exact ⟨rfl, hpicks.unique hpicks'⟩

theorem SelectorOf.unique {name locator : Option String} {selector selector' : LocalVariableSelector}
    (h : SelectorOf name locator selector) (h' : SelectorOf name locator selector') : selector = selector' := by
  cases h <;> cases h' <;> rfl

theorem Acts.unique {db : EditDb} {request : ToolRequest} {a : Address} {edit edit' : Edit}
    (h : Acts env db request a edit) (h' : Acts env db request a edit') : edit = edit' := by
  cases h with
  | setName h =>
    cases h' with
    | setName => rfl
    | setNameWithFlags hne => exact absurd h hne
  | setNameWithFlags hne =>
    cases h' with
    | setName h => exact absurd h hne
    | setNameWithFlags => rfl
  | patch h =>
    obtain ⟨⟩ := h'
    rename_i h'
    obtain rfl := Except.ok.inj (h.symm.trans h')
    rfl
  | patchAsm h =>
    obtain ⟨⟩ := h'
    rename_i h'
    obtain rfl := Except.ok.inj (h.symm.trans h')
    rfl
  | setCmt h =>
    cases h' with
    | setCmt => rfl
    | setCmtWith => exact absurd rfl h
  | setCmtWith =>
    cases h' with
    | setCmt h => exact absurd rfl h
    | setCmtWith => rfl
  | stackVarType h =>
    cases h' with
    | stackVarType => rfl
    | declType => exact absurd h (by simp)
  | declType =>
    cases h' with
    | stackVarType h => exact absurd h (by simp)
    | declType => rfl
  | namedType | declareStack | deleteStack =>
    cases h'
    rfl
  | renameLvar hselector _ _ h | setLvarType hselector _ _ h =>
    obtain ⟨⟩ := h'
    rename_i hselector' _ _ h'
    obtain rfl := hselector.unique hselector'
    obtain ⟨rfl, rfl⟩ := h.unique h'
    rfl
  | setPseudocodeComment _ _ _ h =>
    obtain ⟨⟩ := h'
    rename_i h'
    obtain rfl := Option.some.inj (h.2.1.symm.trans h'.2.1)
    rfl
  | pull _ _ h =>
    obtain ⟨⟩ := h'
    rename_i h'
    obtain rfl := Option.some.inj (h.symm.trans h')
    rfl

theorem Acts.address {db : EditDb} {request : ToolRequest} {a : Address} {edit : Edit}
    (h : Acts env db request a edit) :
    edit.address = a ∨ ∃ func, db.functionAt a = some func ∧ edit.address = func.startAddress := by
  cases h with
  | renameLvar _ _ _ h | setLvarType _ _ _ h =>
    obtain ⟨cfunc, vars, ⟨-, hat, -⟩, -⟩ := h
    exact .inr ⟨_, hat, rfl⟩
  | setPseudocodeComment _ _ _ h => exact .inr ⟨_, h.2.1, rfl⟩
  | pull _ _ hat => exact .inr ⟨_, hat, rfl⟩
  | _ => exact .inl rfl

theorem Chooses.unique (hfloat : PrintsFloats env.json) {db : EditDb} {sel : Selection} {selector selector' : TargetSelector}
    {base base' : ℕ} {symbol symbol' : Option String} (h : Chooses env db sel selector base symbol)
    (h' : Chooses env db sel selector' base' symbol') : selector = selector' ∧ base = base' ∧ symbol = symbol' := by
  cases h with
  | given hnames =>
    obtain ⟨⟩ := h'
    rename_i hnames'
    have haddresses : valueToAddresses env.json env.debug _ = .ok _ := (value_names hfloat _ _).mpr hnames
    rw [(value_names hfloat _ _).mpr hnames', Except.ok.injEq, List.singleton_inj] at haddresses
    rw [haddresses]
    exact ⟨rfl, rfl, rfl⟩
  | named _ h =>
    obtain ⟨⟩ := h'
    rename_i h'
    exact ⟨rfl, (h' _).mp ((h _).mpr rfl), rfl⟩

theorem Aims.unique (hfloat : PrintsFloats env.json) {sel : Selection} {request : ToolRequest} {edit edit' : Edit}
    {target target' : MutationTarget} (h : Aims idb env sel request s edit target)
    (h' : Aims idb env sel request s edit' target') : edit = edit' ∧ target = target' := by
  obtain ⟨db, selector, base, symbol, a, hdb, hchooses, ha, hacts, rfl⟩ := h
  obtain ⟨db', selector', base', symbol', a', hdb', hchooses', ha', hacts', rfl⟩ := h'
  obtain rfl := Option.some.inj (hdb.symm.trans hdb')
  obtain ⟨rfl, rfl, rfl⟩ := hchooses.unique hfloat hchooses'
  obtain rfl : a = a' := by
    apply Fin.ext
    omega
  obtain rfl := hacts.unique hacts'
  exact ⟨rfl, rfl⟩

theorem Aims.by_name {db : EditDb} {query : String} {value : Params.Value} {a : Address} {request : ToolRequest} {edit : Edit}
    (hdb : idb s = some db) (hne : query ≠ "") (hbears : ∀ address, db.Bears query address ↔ address = a)
    (hnames : Names env.json value [a]) (huniq : PrintsFloats env.json) :
    (∃ target, Aims idb env ⟨none, some query⟩ request s edit target) ↔
      ∃ target, Aims idb env ⟨some value, none⟩ request s edit target := by
  constructor
  · rintro ⟨target, db', selector, base, symbol, a', hdb', hchooses, ha, hacts, -⟩
    obtain rfl := Option.some.inj (hdb.symm.trans hdb')
    obtain ⟨-, rfl, -⟩ := hchooses.unique huniq (.named hne hbears)
    exact ⟨_, db, _, _, _, a', hdb, .given hnames, ha, hacts, rfl⟩
  · rintro ⟨target, db', selector, base, symbol, a', hdb', hchooses, ha, hacts, -⟩
    obtain rfl := Option.some.inj (hdb.symm.trans hdb')
    obtain ⟨-, rfl, -⟩ := hchooses.unique huniq (.given hnames)
    exact ⟨_, db, _, _, _, a', hdb, .named hne hbears, ha, hacts, rfl⟩

structure MutationsExact (sdk : Sdk σ) (idb : σ → Option EditDb) (env : Env) : Prop where
  edits : ∀ sel request s, Edits sdk (call sdk idb env sel request) s (Aims idb env sel request s)
  once : ∀ sel request s edit target edit' target', Aims idb env sel request s edit target →
    Aims idb env sel request s edit' target' → edit = edit' ∧ target = target'
  there : ∀ db request a edit, Acts env db request a edit →
    edit.address = a ∨ ∃ func, db.functionAt a = some func ∧ edit.address = func.startAddress
  named : ∀ s db query value (a : Address) request edit, idb s = some db → query ≠ "" →
    (∀ address, db.Bears query address ↔ address = a) → Names env.json value [a] →
    ((∃ target, Aims idb env ⟨none, some query⟩ request s edit target) ↔
      ∃ target, Aims idb env ⟨some value, none⟩ request s edit target)
  unresolved : ∀ s db query request, idb s = some db → (¬ ∃ base, ∀ address, db.Bears query address ↔ address = base) →
    ∃ e, call sdk idb env ⟨none, some query⟩ request s = (.error e, s)

theorem mutations_exact (hfloat : PrintsFloats env.json) : MutationsExact sdk idb env where
  edits := fun sel request _ => call_edits hfloat sel request
  once := fun _ _ _ _ _ _ _ h h' => h.unique hfloat h'
  there := fun _ _ _ _ h => h.address
  named := fun _ _ _ _ _ _ _ hdb hne hbears hnames => Aims.by_name hdb hne hbears hnames hfloat
  unresolved := by
    intro s db query request hdb hnone
    have hedits : Edits sdk (call sdk idb env ⟨none, some query⟩ request) s _ := call_edits hfloat _ request
    obtain ⟨edit, target, haims, -⟩ | ⟨-, hfails⟩ := hedits
    · obtain ⟨db', _, base, _, _, hdb', hchooses, -⟩ := haims
      obtain rfl := Option.some.inj (hdb.symm.trans hdb')
      cases hchooses with
      | named _ hbears => exact absurd ⟨base, hbears⟩ hnone
    · exact hfails

def loggingSdk : Sdk (List Edit) where
  perform edit log :=
    (match edit with
      | .setStackVarType .. | .defineStackVar .. | .deleteStackVar .. => .ok ⟨"", 0, 0⟩
      | .applyDeclType .. | .applyNamedType .. => .ok true
      | .setLocalVariableType .. => .ok ""
      | .pull .. => .ok ⟨.notFound, none, 0, 0, 0, [], false, false, none⟩
      | .setCmt .. | .setCmtWith .. | .setName .. | .setNameWithFlags .. | .patchBytes .. | .renameLocalVariable .. |
        .setPseudocodeComment .. => .ok (),
      log ++ [edit])

def twoNames : EditDb where
  functions := [⟨0x1000, 0x1010, some "main", 16⟩, ⟨0x2000, 0x2010, some "domain", 16⟩]
  functionAt _ := none
  names := [⟨0x1000, "main"⟩]
  hasName a := a = 0x1000
  closestByAddress _ := some ⟨0x1000, "main"⟩
  decompilerAvailable := false
  decompile _ := .error .decompilerUnavailable
  assembleLine _ _ := .error "no assembler"

def plainEnv : Env where
  json := plainJson
  debug := id
  texts := ⟨id, id, fun _ => ""⟩
  allowLumina := false
  database := none

theorem mutations_exact_logged : MutationsExact loggingSdk (fun _ => some twoNames) plainEnv ∧
    (call loggingSdk (fun _ => some twoNames) plainEnv ⟨none, some "main"⟩ (.rename "start" none) []).2 =
      [.setName 0x1000 "start"] ∧
    (call loggingSdk (fun _ => some twoNames) plainEnv ⟨none, some "mai"⟩ (.rename "start" none) []).2 = [] := by
  refine ⟨mutations_exact plainJson_floats, rfl, rfl⟩

end IdaMcp.Mutation
