import IdaMcp.Dsc.Script
import IdaMcp.Foundation.Python

namespace IdaMcp.Dsc

open Foundation Text Python

/-! The script builders. -/

def helperLines : List String := [
  "\n",
  "def run_plugin_checked(name, arg, context, strict_nonzero=False):\n",
  "    def plugin_failed():\n",
  "        raise RuntimeError(f\"\x7bname\x7d plugin failed during \x7bcontext\x7d (return=\x7brc!r\x7d)\")\n",
  "\n",
  "    rc = load_and_run_plugin(name, arg)\n",
  "    if rc is None:\n",
  "        plugin_failed()\n",
  "    if strict_nonzero and (rc is False or (isinstance(rc, int) and rc <= 0)):\n",
  "        plugin_failed()\n",
  "    if isinstance(rc, int) and rc < 0:\n",
  "        plugin_failed()\n",
  "    return rc\n",
  "\n",
  "def legacy_dscu_load_module(module):\n",
  "    node = idaapi.netnode()\n",
  "    node.create(\"$ dscu\")\n",
  "    node.supset(2, module)\n",
  "    run_plugin_checked(\"dscu\", 1, f\"loading module \x7bmodule\x7d\", True)\n",
  "\n",
  "def modern_dscu_service():\n",
  "    try:\n",
  "        import ida_dscu\n",
  "    except ImportError:\n",
  "        return None, None\n",
  "\n",
  "    svc = ida_dscu.get_dscu_svc()\n",
  "    if svc is None:\n",
  "        return ida_dscu, None\n",
  "    return ida_dscu, svc\n",
  "\n",
  "def dscu_load_module(module):\n",
  "    ida_dscu, svc = modern_dscu_service()\n",
  "    if svc is None:\n",
  "        legacy_dscu_load_module(module)\n",
  "        return \"legacy\"\n",
  "\n",
  "    image_index = svc.get_image_index(module)\n",
  "    if image_index < 0:\n",
  "        raise RuntimeError(f\"DSC image not found: \x7bmodule\x7d\")\n",
  "    if svc.is_image_loaded(image_index):\n",
  "        print(f\"[ida-mcp] module already loaded: \x7bmodule\x7d\")\n",
  "        return \"ida_dscu\"\n",
  "    if not svc.load_image(image_index):\n",
  "        raise RuntimeError(f\"ida_dscu failed to load module: \x7bmodule\x7d\")\n",
  "    return \"ida_dscu\"\n",
  "\n",
  "def legacy_dscu_load_region(ea):\n",
  "    node = idaapi.netnode()\n",
  "    node.create(\"$ dscu\")\n",
  "    node.altset(3, ea)\n",
  "    run_plugin_checked(\"dscu\", 2, f\"loading region \x7bea:#x\x7d\", True)\n",
  "\n",
  "def modern_dscu_load_region(ida_dscu, svc, ea):\n",
  "    info = svc.locate_address(ea)\n",
  "    region = info.region\n",
  "    if region.type == ida_dscu.rt_invalid:\n",
  "        raise RuntimeError(f\"DSC address is not mapped: \x7bea:#x\x7d\")\n",
  "\n",
  "    if region.type == ida_dscu.rt_image_entity:\n",
  "        ok = svc.load_image(region.image_index)\n",
  "    elif region.type == ida_dscu.rt_island:\n",
  "        island = getattr(region, \"branch_island_number\", region.image_index)\n",
  "        ok = svc.load_island(island)\n",
  "    elif region.type == ida_dscu.rt_mapping:\n",
  "        ok = svc.load_branch_mapping(region.start)\n",
  "    elif region.type == ida_dscu.rt_got:\n",
  "        ok = svc.load_got(region.start)\n",
  "    elif region.type == ida_dscu.rt_unknown:\n",
  "        ok = svc.load_unknown_region(region.start)\n",
  "    elif region.type == ida_dscu.rt_cache_data:\n",
  "        ok = svc.load_cache_data(region.start)\n",
  "    else:\n",
  "        raise RuntimeError(f\"DSC region type is not loadable: \x7bregion.type\x7d\")\n",
  "\n",
  "    if not ok:\n",
  "        raise RuntimeError(f\"ida_dscu failed to load region at \x7bea:#x\x7d\")\n",
  "\n",
  "def dscu_load_region(ea):\n",
  "    ida_dscu, svc = modern_dscu_service()\n",
  "    if svc is None:\n",
  "        legacy_dscu_load_region(ea)\n",
  "        return \"legacy\"\n",
  "\n",
  "    modern_dscu_load_region(ida_dscu, svc, ea)\n",
  "    return \"ida_dscu\"\n"]

def dscuPythonHelpers : String := String.join helperLines

def dscAddDylibScript (moduleName : String) : String :=
  "import idaapi\n\tfrom idc import *\n\n\t" ++ dscuPythonHelpers ++ "\n\n" ++
  "\tprint(\"[ida-mcp] loading additional dylib: " ++ escapePythonString moduleName ++ "\")\n" ++
  "\tdsc_backend = dscu_load_module(\"" ++ escapePythonString moduleName ++ "\")\n" ++
  "\tprint(f\"[ida-mcp] dsc backend: \x7bdsc_backend\x7d\")\n\n" ++
  "# ObjC type analysis (lightweight, no full auto-analysis)\n" ++
  "print(\"[ida-mcp] analyzing objc types\")\n" ++
  "run_plugin_checked(\"objc\", 1, \"objc type analysis\", False)\n" ++
  "print(\"[ida-mcp] analyzing NSConcreteGlobalBlock objects\")\n" ++
  "run_plugin_checked(\"objc\", 4, \"objc global block analysis\", False)\n\n" ++
  "print(\"[ida-mcp] dsc_add_dylib complete for: " ++ escapePythonString moduleName ++ "\")\n"

def dscAddRegionScript (ea : ℕ) : String :=
  "import idaapi\n\tfrom idc import *\n\n\t" ++ dscuPythonHelpers ++ "\n\n" ++
  "\tprint(\"[ida-mcp] loading region " ++ "0x" ++ String.ofList (Nat.toDigits 16 ea) ++ "\")\n" ++
  "\tdsc_backend = dscu_load_region(" ++ String.ofList (Nat.toDigits 10 ea) ++ ")\n" ++
  "\tprint(f\"[ida-mcp] dsc backend: \x7bdsc_backend\x7d\")\n" ++
  "\tprint(\"[ida-mcp] dsc_add_region complete for: " ++ "0x" ++ String.ofList (Nat.toDigits 16 ea) ++
  "\")\n\t"

/-! The escaped text. -/

def replace (c : Char) (text s : Chars) : Chars := s.flatMap fun d => if d = c then text else [d]

def NulFree (s : String) : Prop := '\x00' ∉ s.toList

def escaped (s : Chars) : Chars := s.flatMap escapeChar

theorem escaped_cons (c : Char) (s : Chars) : escaped (c :: s) = escapeChar c ++ escaped s := rfl

theorem toList_escapePythonString (s : String) : (escapePythonString s).toList = escaped s.toList :=
  String.toList_ofList

theorem escapeChar_cases (c : Char) :
    (∃ d, escapeChar c = ['\\', d] ∧ d ≠ '\x00' ∧ d ≠ '\r' ∧ d ≠ '\n' ∧ escapeValue d = some [c.toNat]) ∨
      escapeChar c = [c] ∧ c ≠ '\\' ∧ c ≠ '"' ∧ c ≠ '\n' ∧ c ≠ '\r' := by
  unfold escapeChar
  split
  · exact .inl ⟨'\\', rfl, by decide, by decide, by decide, rfl⟩
  · exact .inl ⟨'"', rfl, by decide, by decide, by decide, rfl⟩
  · exact .inl ⟨'n', rfl, by decide, by decide, by decide, rfl⟩
  · exact .inl ⟨'r', rfl, by decide, by decide, by decide, rfl⟩
  · rename_i hbackslash hquote hnewline hreturn
    exact .inr ⟨rfl, hbackslash, hquote, hnewline, hreturn⟩

theorem mem_escaped_nul {s : Chars} (h : '\x00' ∈ s) : '\x00' ∈ escaped s :=
  List.mem_flatMap.mpr ⟨'\x00', h, by decide⟩

theorem escaped_lines (s : Chars) : '\n' ∉ escaped s ∧ '\r' ∉ escaped s := by
  induction s with
  | nil => exact ⟨List.not_mem_nil, List.not_mem_nil⟩
  | cons c s ih =>
    rw [escaped_cons]
    obtain ⟨d, hd, -, hreturn, hnewline, -⟩ | ⟨hc, -, -, hnewline, hreturn⟩ := escapeChar_cases c
    · rw [hd]
      simp [ih, hreturn.symm, hnewline.symm]
    · rw [hc]
      simp [ih, hreturn.symm, hnewline.symm]

theorem decode_escaped (names : Chars → Option ℕ) (s : Chars) :
    decode names .plain (escaped s) = some (s.map Char.toNat) := by
  induction s with
  | nil => rfl
  | cons c s ih =>
    rw [escaped_cons]
    obtain ⟨d, hd, -, -, -, hvalue⟩ | ⟨hc, hbackslash, -, -, -⟩ := escapeChar_cases c
    · rw [hd]
      simp [decode, hvalue, ih]
    · rw [hc]
      simp [decode, hbackslash, ih]

theorem decode_plain_append (names : Chars → Option ℕ) {raw : Chars} (hraw : '\\' ∉ raw) (s : Chars) :
    decode names .plain (raw ++ s) = (decode names .plain s).map (raw.map Char.toNat ++ ·) := by
  induction raw with
  | nil => simp
  | cons c raw ih =>
    obtain ⟨hc, hraw⟩ := List.ne_and_not_mem_of_not_mem_cons hraw
    simp [decode, hc.symm, ih hraw, Function.comp_def]

theorem scan_escaped (pre raw : Chars) {s : Chars} (hs : '\x00' ∉ s) :
    scan (.short pre '"' raw) (escaped s) = (.short pre '"' (raw ++ escaped s), []) := by
  induction s generalizing raw with
  | nil => simp [escaped, scan]
  | cons c s ih =>
    obtain ⟨hnul, hs⟩ := List.ne_and_not_mem_of_not_mem_cons hs
    rw [escaped_cons, scan_append]
    obtain ⟨d, hd, hdnul, hdreturn, -, -⟩ | ⟨hc, hbackslash, hquote, hnewline, hreturn⟩ := escapeChar_cases c
    · rw [hd]
      simp [scan, next, nextShort, hdnul, hdreturn, ih _ hs]
    · rw [hc]
      simp [scan, next, nextShort, hnul.symm, hbackslash, hquote, hnewline, hreturn, ih _ hs]

def InString (mode : Mode) (raw : Chars) : Prop :=
  mode = .short [] '"' raw ∨ mode = .opened [] '"' ∧ raw = []

theorem scan_opened (pre : Chars) {value : Chars} (hne : value ≠ []) (rest : Chars) :
    scan (.opened pre '"') (escaped value ++ rest) = scan (.short pre '"' []) (escaped value ++ rest) := by
  have hcons {c : Char} (hc : c ≠ '"') (s : Chars) :
      scan (.opened pre '"') (c :: s) = scan (.short pre '"' []) (c :: s) := by
    simp [scan, next, hc]
  obtain ⟨c, value, rfl⟩ := List.exists_cons_of_ne_nil hne
  rw [escaped_cons]
  obtain ⟨d, hd, -⟩ | ⟨hc, -, hquote, -, -⟩ := escapeChar_cases c
  · rw [hd]
    exact hcons (by decide) _
  · rw [hc]
    exact hcons hquote _

theorem scan_value {mode : Mode} {raw : Chars} (hmode : InString mode raw) {value : Chars}
    (hvalue : '\x00' ∉ value) (rest : Chars) :
    scan mode (escaped value ++ '"' :: ')' :: rest) = ((scan (.code []) rest).1,
      .literal [] (raw ++ escaped value) :: .symbol ')' :: (scan (.code []) rest).2) := by
  have hparen : nextCode [] ')' = (.code [], [.symbol ')']) := by decide
  have hshort (raw : Chars) : scan (.short [] '"' raw) (escaped value ++ '"' :: ')' :: rest) =
      ((scan (.code []) rest).1,
        .literal [] (raw ++ escaped value) :: .symbol ')' :: (scan (.code []) rest).2) := by
    rw [scan_append, scan_escaped [] raw hvalue]
    simp [scan, next, nextShort, hparen]
  obtain rfl | ⟨rfl, rfl⟩ := hmode
  · exact hshort raw
  · by_cases hne : value = []
    · subst hne
      simp [escaped, scan, next, hparen]
    · rw [scan_opened [] hne]
      exact hshort []

/-! Sources with other values in their literals. -/

variable {names : Chars → Option ℕ}

theorem alike_value {mode : Mode} {raw : Chars} (hmode : InString mode raw) (hraw : '\\' ∉ raw)
    {value value' rest rest' : Chars} (hvalue : '\x00' ∉ value) (hvalue' : '\x00' ∉ value')
    (h : Alike names (scan (.code []) rest) (scan (.code []) rest')) :
    Alike names (scan mode (escaped value ++ '"' :: ')' :: rest))
      (scan mode (escaped value' ++ '"' :: ')' :: rest')) := by
  have hshape (value : Chars) : (Item.literal [] (raw ++ escaped value)).shape names = .text := by
    simp [Item.shape, decode_plain_append names hraw, decode_escaped]
  rw [scan_value hmode hvalue, scan_value hmode hvalue']
  exact ⟨h.left, h.right, by simp [hshape, h.shape]⟩

theorem scan_literal {text : String} {s : Chars} {mode mode' : Mode} (htext : text = String.ofList s)
    (h : (scan mode s).1 = mode') : (scan mode text.toList).1 = mode' := by
  rwa [htext, String.toList_ofList]

theorem helperLines_code : ∀ line ∈ helperLines, (scan (.code []) line.toList).1 = .code [] := by
  unfold helperLines
  simp only [List.forall_mem_cons]
  and_intros
  all_goals first
    | exact scan_literal rfl (by decide +kernel)
    | exact fun _ h => nomatch h

theorem scan_join {lines : List String} (h : ∀ line ∈ lines, (scan (.code []) line.toList).1 = .code []) :
    (scan (.code []) (String.join lines).toList).1 = .code [] := by
  rw [String.toList_join]
  induction lines with
  | nil => rfl
  | cons line lines ih =>
    rw [List.flatMap_cons, scan_append, h line List.mem_cons_self]
    exact ih fun line hline => h line (List.mem_cons_of_mem _ hline)

theorem alike_helpers {s s' : Chars} (h : Alike names (scan (.code []) s) (scan (.code []) s')) :
    Alike names (scan (.code []) (dscuPythonHelpers.toList ++ s))
      (scan (.code []) (dscuPythonHelpers.toList ++ s')) := by
  exact .text (scan_join helperLines_code) h

theorem alike_code {text : String} {t : Chars} (htext : text = String.ofList t)
    (ht : (scan (.code []) t).1 = .code []) {s s' : Chars}
    (h : Alike names (scan (.code []) s) (scan (.code []) s')) :
    Alike names (scan (.code []) (text.toList ++ s)) (scan (.code []) (text.toList ++ s')) :=
  .text (scan_literal htext ht) h

def entersLiteral (t : Chars) : Bool :=
  match (scan (.code []) t).1 with
  | .short [] '"' raw => '\\' ∉ raw
  | .opened [] '"' => true
  | _ => false

theorem inString_of_enters {t : Chars} (h : entersLiteral t = true) :
    ∃ raw, InString (scan (.code []) t).1 raw ∧ '\\' ∉ raw := by
  unfold entersLiteral at h
  split at h
  · rename_i raw hmode
    exact ⟨raw, .inl hmode, of_decide_eq_true h⟩
  · rename_i hmode
    exact ⟨[], .inr ⟨hmode, rfl⟩, List.not_mem_nil⟩
  · cases h

theorem alike_call {text close : String} {t tail : Chars} (htext : text = String.ofList t)
    (ht : entersLiteral t = true) (hclose : close = String.ofList ('"' :: ')' :: tail))
    (htail : (scan (.code []) tail).1 = .code []) {value value' rest rest' : Chars}
    (hvalue : '\x00' ∉ value) (hvalue' : '\x00' ∉ value')
    (h : Alike names (scan (.code []) rest) (scan (.code []) rest')) :
    Alike names (scan (.code []) (text.toList ++ (escaped value ++ (close.toList ++ rest))))
      (scan (.code []) (text.toList ++ (escaped value' ++ (close.toList ++ rest')))) := by
  obtain ⟨raw, hmode, hraw⟩ := inString_of_enters ht
  rw [htext, hclose, String.toList_ofList, String.toList_ofList]
  exact .text rfl (alike_value hmode hraw hvalue hvalue' (.text htail h))

theorem alike_number {close : String} {tail : Chars} (hclose : close = String.ofList (')' :: tail))
    (htail : (scan (.code []) tail).1 = .code []) (n n' : ℕ) {rest rest' : Chars}
    (h : Alike names (scan (.code []) rest) (scan (.code []) rest')) :
    Alike names (scan (.code []) (Nat.toDigits 10 n ++ (close.toList ++ rest)))
      (scan (.code []) (Nat.toDigits 10 n' ++ (close.toList ++ rest'))) := by
  rw [hclose, String.toList_ofList]
  exact .number (fun _ => rfl) n n' (.text htail h)

theorem alike_lastCall {text close : String} {t tail : Chars} (htext : text = String.ofList t)
    (ht : entersLiteral t = true) (hclose : close = String.ofList ('"' :: ')' :: tail))
    (htail : (scan (.code []) tail).1 = .code []) {value value' : Chars}
    (hvalue : '\x00' ∉ value) (hvalue' : '\x00' ∉ value') :
    Alike names (scan (.code []) (text.toList ++ (escaped value ++ close.toList)))
      (scan (.code []) (text.toList ++ (escaped value' ++ close.toList))) := by
  have hnil : Alike names (scan (.code []) []) (scan (.code []) []) := .of_code rfl
  have h := alike_call htext ht hclose htail hvalue hvalue' hnil
  rwa [List.append_nil] at h

theorem frameworks_alike {frameworks frameworks' : List String} (hlength : frameworks.length = frameworks'.length)
    (hfrees : ∀ f ∈ frameworks, NulFree f) (hfrees' : ∀ f ∈ frameworks', NulFree f) {s s' : Chars}
    (h : Alike names (scan (.code []) s) (scan (.code []) s')) :
    Alike names (scan (.code []) ((frameworks.map loadFramework).flatMap String.toList ++ s))
      (scan (.code []) ((frameworks'.map loadFramework).flatMap String.toList ++ s')) := by
  induction frameworks generalizing frameworks' with
  | nil =>
    obtain rfl := List.length_eq_zero_iff.mp hlength.symm
    exact h
  | cons f frameworks ih =>
    obtain _ | ⟨f', frameworks'⟩ := frameworks'
    · cases hlength
    · obtain ⟨hf, hfrees⟩ := List.forall_mem_cons.mp hfrees
      obtain ⟨hf', hfrees'⟩ := List.forall_mem_cons.mp hfrees'
      have hrest := ih (Nat.succ.inj hlength) hfrees hfrees'
      rw [List.map_cons, List.map_cons, List.flatMap_cons, List.flatMap_cons]
      unfold loadFramework
      simp only [String.toList_append, toList_escapePythonString, List.append_assoc]
      refine alike_call rfl (by decide +kernel) rfl (by decide +kernel) hf hf' ?_
      exact alike_call rfl (by decide +kernel) rfl (by decide +kernel) hf hf' hrest

theorem objcPasses_alike :
    Alike names (scan (.code []) objcPasses.toList) (scan (.code []) objcPasses.toList) := by
  have hend (text : String) {t : Chars} (htext : text = String.ofList t)
      (ht : (scan (.code []) t).1 = .code []) :
      Alike names (scan (.code []) text.toList) (scan (.code []) text.toList) :=
    .of_code (scan_literal htext ht)
  unfold objcPasses
  simp only [String.toList_append, List.append_assoc]
  iterate 12 refine alike_code rfl (by decide +kernel) ?_
  exact hend _ rfl (by decide +kernel)

theorem dscLoadScript_alike {m m' : String} {frameworks frameworks' : List String}
    (hm : NulFree m) (hm' : NulFree m') (hlength : frameworks.length = frameworks'.length)
    (hfrees : ∀ f ∈ frameworks, NulFree f) (hfrees' : ∀ f ∈ frameworks', NulFree f) :
    Alike names (scan (.code []) (dscLoadScript dscuPythonHelpers m frameworks).toList)
      (scan (.code []) (dscLoadScript dscuPythonHelpers m' frameworks').toList) := by
  unfold dscLoadScript
  simp only [String.toList_append, toList_escapePythonString, List.append_assoc, String.toList_join]
  refine alike_code rfl (by decide +kernel) (alike_helpers ?_)
  refine alike_code rfl (by decide +kernel) ?_
  refine alike_code rfl (by decide +kernel) ?_
  refine alike_call rfl (by decide +kernel) rfl (by decide +kernel) hm hm' ?_
  refine alike_call rfl (by decide +kernel) rfl (by decide +kernel) hm hm' ?_
  refine alike_code rfl (by decide +kernel) ?_
  exact frameworks_alike hlength hfrees hfrees' objcPasses_alike

theorem dscAddDylibScript_alike {m m' : String} (hm : NulFree m) (hm' : NulFree m') :
    Alike names (scan (.code []) (dscAddDylibScript m).toList)
      (scan (.code []) (dscAddDylibScript m').toList) := by
  unfold dscAddDylibScript
  simp only [String.toList_append, toList_escapePythonString, List.append_assoc]
  refine alike_code rfl (by decide +kernel) (alike_helpers ?_)
  refine alike_code rfl (by decide +kernel) ?_
  refine alike_call rfl (by decide +kernel) rfl (by decide +kernel) hm hm' ?_
  refine alike_call rfl (by decide +kernel) rfl (by decide +kernel) hm hm' ?_
  iterate 6 refine alike_code rfl (by decide +kernel) ?_
  exact alike_lastCall rfl (by decide +kernel) rfl (by decide +kernel) hm hm'

theorem escaped_hex (n : ℕ) : escaped ('0' :: 'x' :: Nat.toDigits 16 n) = '0' :: 'x' :: Nat.toDigits 16 n ∧
    '\x00' ∉ '0' :: 'x' :: Nat.toDigits 16 n := by
  have hall : ∀ d < 16, escapeChar (Nat.digitChar d) = [Nat.digitChar d] ∧ Nat.digitChar d ≠ '\x00' := by
    decide
  have hdigit : ∀ c ∈ Nat.toDigits 16 n, escapeChar c = [c] ∧ c ≠ '\x00' := by
    intro c hc
    obtain ⟨d, hd, rfl⟩ := exists_digit_of_mem_toDigits (by decide) hc
    exact hall d hd
  constructor
  · have hdigits : escaped (Nat.toDigits 16 n) = Nat.toDigits 16 n := by
      rw [escaped, List.flatMap_congr fun c hc => (hdigit c hc).1, List.flatMap_singleton']
    simp [escaped_cons, escapeChar, hdigits]
  · intro h
    simp only [List.mem_cons] at h
    grind

theorem dscAddRegionScript_alike (ea ea' : ℕ) :
    Alike names (scan (.code []) (dscAddRegionScript ea).toList)
      (scan (.code []) (dscAddRegionScript ea').toList) := by
  have hvalue (ea : ℕ) (rest : Chars) : "0x".toList ++ (Nat.toDigits 16 ea ++ rest) =
      escaped ('0' :: 'x' :: Nat.toDigits 16 ea) ++ rest := by
    rw [(escaped_hex ea).1]
    rfl
  unfold dscAddRegionScript
  simp only [String.toList_append, String.toList_ofList, List.append_assoc, hvalue]
  refine alike_code rfl (by decide +kernel) (alike_helpers ?_)
  refine alike_code rfl (by decide +kernel) ?_
  refine alike_call rfl (by decide +kernel) rfl (by decide +kernel) (escaped_hex ea).2 (escaped_hex ea').2 ?_
  refine alike_code rfl (by decide +kernel) ?_
  refine alike_number rfl (by decide +kernel) ea ea' ?_
  refine alike_code rfl (by decide +kernel) ?_
  exact alike_lastCall rfl (by decide +kernel) rfl (by decide +kernel) (escaped_hex ea).2 (escaped_hex ea').2

/-! What the escaping is for. -/

/-- The escaped text between quotes is one literal on one line, with the value of the string. -/
def OneLiteral (names : Chars → Option ℕ) (s : String) : Prop :=
  (∃ raw, lex ('"' :: (escapePythonString s).toList ++ ['"']) = some [.literal [] raw] ∧
    decode names .plain raw = some (s.toList.map Char.toNat)) ∧
  ∀ c ∈ '"' :: (escapePythonString s).toList ++ ['"'], c ≠ '\n' ∧ c ≠ '\r'

theorem oneLiteral_iff (names : Chars → Option ℕ) (s : String) : OneLiteral names s ↔ NulFree s := by
  unfold OneLiteral
  rw [toList_escapePythonString]
  constructor
  · rintro ⟨⟨raw, hlex, -⟩, -⟩ hnul
    rw [lex_nul (by simp [mem_escaped_nul hnul])] at hlex
    cases hlex
  · intro hfree
    refine ⟨⟨escaped s.toList, ?_, decode_escaped names _⟩, ?_⟩
    · have hquote : next (.code []) '"' = (.opened [] '"', []) := by decide
      by_cases hne : s.toList = []
      · rw [hne]
        rfl
      · have hscan : scan (.opened [] '"') (escaped s.toList ++ ['"']) =
            (.code [], [.literal [] (escaped s.toList)]) := by
          rw [scan_opened [] hne, scan_append, scan_escaped [] [] hfree]
          simp [scan, next, nextShort]
        have htext : scan (.code []) ('"' :: escaped s.toList ++ ['"']) =
            (.code [], [.literal [] (escaped s.toList)]) := by
          rw [List.cons_append, scan, hquote, hscan]
          rfl
        exact lex_of_scan htext (rfl : finish (.code []) = some [])
    · have hlines := escaped_lines s.toList
      intro c hc
      simp only [List.cons_append, List.mem_cons, List.mem_append, List.not_mem_nil, or_false] at hc
      grind

/-- A name of a module or of a framework as it usually is. -/
def Harmless (s : String) : Prop := ∀ c ∈ s.toList, c.isAlphanum ∨ c ∈ ['/', '.', '-', '_', '+', ' ']

theorem Harmless.nulFree {s : String} (h : Harmless s) : NulFree s := by
  intro hnul
  exact absurd (h _ hnul) (by decide)

theorem shapes_nul {text : String} (h : '\x00' ∈ text.toList) : shapes names text.toList = none := by
  rw [shapes, lex_nul h]
  rfl

theorem dscLoadScript_nul {m : String} {frameworks : List String}
    (h : ¬ NulFree m ∨ ∃ f ∈ frameworks, ¬ NulFree f) :
    '\x00' ∈ (dscLoadScript dscuPythonHelpers m frameworks).toList := by
  unfold dscLoadScript
  simp only [String.toList_append, toList_escapePythonString, List.mem_append, String.toList_join]
  obtain hm | ⟨f, hf, hnul⟩ := h
  · simp only [mem_escaped_nul (not_not.mp hm), true_or, or_true]
  · have hframework : '\x00' ∈ (loadFramework f).toList := by
      unfold loadFramework
      simp only [String.toList_append, toList_escapePythonString, List.mem_append,
        mem_escaped_nul (not_not.mp hnul), true_or, or_true]
    have hmem : '\x00' ∈ (frameworks.map loadFramework).flatMap String.toList :=
      List.mem_flatMap.mpr ⟨_, List.mem_map_of_mem hf, hframework⟩
    simp only [hmem, true_or, or_true]

theorem dscAddDylibScript_nul {m : String} (h : ¬ NulFree m) : '\x00' ∈ (dscAddDylibScript m).toList := by
  unfold dscAddDylibScript
  simp only [String.toList_append, toList_escapePythonString, List.mem_append,
    mem_escaped_nul (not_not.mp h), true_or, or_true]

/-- The escaping is exact, and the scripts keep their structure, just where no NUL comes in. -/
theorem escaping_exact (names : Chars → Option ℕ) :
    (∀ s, OneLiteral names s ↔ NulFree s) ∧
    (∀ m frameworks m' frameworks', Harmless m' → (∀ f ∈ frameworks', Harmless f) →
      frameworks.length = frameworks'.length →
      (shapes names (dscLoadScript dscuPythonHelpers m frameworks).toList =
          shapes names (dscLoadScript dscuPythonHelpers m' frameworks').toList ↔
        NulFree m ∧ ∀ f ∈ frameworks, NulFree f)) ∧
    (∀ m m', Harmless m' →
      (shapes names (dscAddDylibScript m).toList = shapes names (dscAddDylibScript m').toList ↔
        NulFree m)) ∧
    ∀ ea ea', shapes names (dscAddRegionScript ea).toList = shapes names (dscAddRegionScript ea').toList ∧
      (shapes names (dscAddRegionScript ea').toList).isSome := by
  refine ⟨oneLiteral_iff names, ?_, ?_, fun ea ea' => (dscAddRegionScript_alike ea ea').shapes⟩
  · intro m frameworks m' frameworks' hm' hfrees' hlength
    have hharmless : (shapes names (dscLoadScript dscuPythonHelpers m' frameworks').toList).isSome :=
      (dscLoadScript_alike hm'.nulFree hm'.nulFree rfl (fun f hf => (hfrees' f hf).nulFree)
        fun f hf => (hfrees' f hf).nulFree).shapes.2
    constructor
    · intro hsame
      by_contra hnul
      have hnul' : ¬ NulFree m ∨ ∃ f ∈ frameworks, ¬ NulFree f := by
        by_contra hfree
        push Not at hfree
        exact hnul hfree
      rw [← hsame, shapes_nul (dscLoadScript_nul hnul')] at hharmless
      cases hharmless
    · rintro ⟨hm, hfrees⟩
      exact (dscLoadScript_alike hm hm'.nulFree hlength hfrees fun f hf => (hfrees' f hf).nulFree).shapes.1
  · intro m m' hm'
    have hharmless : (shapes names (dscAddDylibScript m').toList).isSome :=
      (dscAddDylibScript_alike hm'.nulFree hm'.nulFree).shapes.2
    constructor
    · intro hsame hnul
      rw [← hsame, shapes_nul (dscAddDylibScript_nul (not_not.mpr hnul))] at hharmless
      cases hharmless
    · exact fun hm => (dscAddDylibScript_alike hm hm'.nulFree).shapes.1

theorem quoted_module_alike :
    shapes (fun _ => none) (dscLoadScript dscuPythonHelpers "a\"); b(\"" []).toList =
      shapes (fun _ => none) (dscLoadScript dscuPythonHelpers "" []).toList := by
  have hharmless : Harmless "" := fun c hc => absurd hc (by simp)
  refine ((escaping_exact fun _ => none).2.1 "a\"); b(\"" [] "" [] hharmless ?_ rfl).mpr ⟨?_, ?_⟩
  · exact fun f hf => absurd hf List.not_mem_nil
  · unfold NulFree
    decide
  · exact fun f hf => absurd hf List.not_mem_nil

/-- A NUL is written as it is, and Python refuses the whole script. -/
theorem nul_refused : ¬ OneLiteral (fun _ => none) "\x00" ∧
    shapes (fun _ => none) (dscLoadScript dscuPythonHelpers "\x00" []).toList ≠
      shapes (fun _ => none) (dscLoadScript dscuPythonHelpers "" []).toList := by
  have hnul : ¬ NulFree "\x00" := by
    unfold NulFree
    decide
  have hfree : NulFree "" := by
    unfold NulFree
    decide
  constructor
  · rw [oneLiteral_iff]
    exact hnul
  · have hplain : (shapes (fun _ => none) (dscLoadScript dscuPythonHelpers "" []).toList).isSome :=
      (dscLoadScript_alike hfree hfree rfl (fun f hf => absurd hf List.not_mem_nil)
        fun f hf => absurd hf List.not_mem_nil).shapes.2
    rw [shapes_nul (dscLoadScript_nul (.inl hnul))]
    intro hsame
    rw [← hsame] at hplain
    cases hplain

end IdaMcp.Dsc
