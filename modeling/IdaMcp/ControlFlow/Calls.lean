import IdaMcp.Error
import IdaMcp.Foundation.Radix
import Mathlib.Algebra.Ring.Nat

namespace IdaMcp.Callgraph

open Foundation Text Radix

abbrev Address := Fin (2 ^ 64)

instance addressNonempty : NeZero (2 ^ 64) := ⟨by decide⟩

structure Func where
  startAddress : Address
  endAddress : Address
  name : Option String
  len : ℕ

inductive XRefType
  | nearCall
  | farCall
  | other
deriving DecidableEq

structure XRef where
  type : XRefType
  source : Address
  target : Address

def XRef.isCall (xref : XRef) : Bool := xref.type = .nearCall || xref.type = .farCall

inductive OperandType
  | near
  | far
  | other
deriving DecidableEq

structure Operand where
  type : OperandType
  address : Option Address

structure Insn where
  isCall : Bool
  operands : List (Option Operand)
  len : ℕ

structure CallDb where
  functionAt : Address → Option Func
  addressToString : Address → Option String
  /-- `first_xref_from` and what `next_from` leads to. -/
  xrefsFrom : Address → List XRef
  /-- `first_xref_to` and what `next_to` leads to. -/
  xrefsTo : Address → List XRef
  insnAt : Address → Option Insn
  nextHead : Address → Option Address

structure FunctionInfo where
  address : String
  name : String
  size : ℕ
deriving DecidableEq

def subName (address : Address) : String := "sub_" ++ String.ofList (Nat.toDigits 16 address)

def Func.info (func : Func) : FunctionInfo where
  address := hexText func.startAddress
  name := func.name.getD (subName func.startAddress)
  size := func.len

def splitRadix : Chars → ℕ × Chars
  | '0' :: 'x' :: digits | '0' :: 'X' :: digits => (16, digits)
  | '0' :: 'b' :: digits | '0' :: 'B' :: digits => (2, digits)
  | '0' :: 'o' :: digits | '0' :: 'O' :: digits => (8, digits)
  | digits => (10, digits)

def parseAddressStr (text : String) : Except ToolError Address :=
  let s := trim text.toList
  match fromStrRadix (splitRadix s).1 (2 ^ 64) (splitRadix s).2 with
  | some n => .ok (Fin.ofNat _ n)
  | none => .error (.invalidAddress (String.ofList s))

structure Found where
  infos : List FunctionInfo
  seen : List Address

def Found.add (found : Found) (address : Address) (info : FunctionInfo) : Found :=
  if address ∈ found.seen then found else ⟨found.infos ++ [info], address :: found.seen⟩

def isDirectBranchOperand (kind : OperandType) : Bool := kind = .near || kind = .far

variable (db : CallDb)

def addCallee (callees : Found) (target : Address) : Found :=
  match db.functionAt target with
  | some func => callees.add func.startAddress func.info
  | none => callees.add target
    ⟨hexText target, (db.addressToString target).getD (subName target), 0⟩

def directCallTarget (address : Address) : Option Address := do
  let insn ← db.insnAt address
  if insn.isCall then
    insn.operands.findSome? fun operand => do
      let op ← operand
      if isDirectBranchOperand op.type then op.address else none
  else none

def saturatingAdd (address : Address) (n : ℕ) : Address := ⟨min (address + n) (2 ^ 64 - 1), by omega⟩

def following (address : Address) : Option Address :=
  match db.insnAt address with
  | some insn => some (saturatingAdd address insn.len)
  | none => db.nextHead address

def calleesAt (address : Address) (callees : Found) : Found :=
  let calls := (db.xrefsFrom address).filter XRef.isCall
  let callees := calls.foldl (fun callees xref => addCallee db callees xref.target) callees
  if calls.isEmpty then
    match directCallTarget db address with
    | some target => addCallee db callees target
    | none => callees
  else callees

def walkCallees (stop current : Address) (callees : Found) : Found :=
  if _hstop : current < stop then
    match following db current with
    | some next =>
      if _hnext : next ≤ current then calleesAt db current callees
      else walkCallees stop next (calleesAt db current callees)
    | none => calleesAt db current callees
  else callees
termination_by stop.val - current.val
decreasing_by
  have hstop : current.val < stop.val := _hstop
  have hless : current.val < next.val := not_le.mp _hnext
  omega

def handleCallees (idb : Option CallDb) (address : Address) : Except ToolError (List FunctionInfo) :=
  match idb with
  | none => .error .noDatabaseOpen
  | some db =>
    match db.functionAt address with
    | none => .error (.functionNotFound (UInt64.ofNat address))
    | some func => .ok (walkCallees db func.endAddress func.startAddress ⟨[], []⟩).infos

def addCaller (callers : Found) (xref : XRef) : Found :=
  if xref.isCall then
    match db.functionAt xref.source with
    | some func => callers.add func.startAddress func.info
    | none => callers
  else callers

def handleCallers (idb : Option CallDb) (address : Address) : Except ToolError (List FunctionInfo) :=
  match idb with
  | none => .error .noDatabaseOpen
  | some db =>
    match db.functionAt address with
    | none => .error (.functionNotFound (UInt64.ofNat address))
    | some func => .ok ((db.xrefsTo func.startAddress).foldl (addCaller db) ⟨[], []⟩).infos

theorem parseAddressStr_hexText (address : Address) :
    parseAddressStr (hexText address) = .ok address := by
  have hplain : IsPlain (['0', 'x'] ++ Nat.toDigits 16 address) :=
    IsPlain.append (by decide) (isPlain_hex _)
  have htext : trim (hexText address).toList = '0' :: 'x' :: Nat.toDigits 16 address := by
    simp only [hexText, String.toList_append, String.toList_ofList]
    exact hplain.trim_eq
  rw [parseAddressStr, htext]
  simp only [splitRadix, fromStrRadix_toDigits (show 1 < 16 by decide) (le_refl 16),
    if_pos address.isLt]
  rw [Except.ok.injEq, Fin.ext_iff]
  exact Nat.mod_eq_of_lt address.isLt

def Found.Rendered (found : Found) : Prop :=
  ∀ info ∈ found.infos, ∃ address : Address, info.address = hexText address

theorem Found.Rendered.add {found : Found} (h : found.Rendered) (address : Address)
    {info : FunctionInfo} {at' : Address} (hinfo : info.address = hexText at') :
    (found.add address info).Rendered := by
  unfold Found.add
  split_ifs
  · exact h
  · intro i hi
    rcases List.mem_append.mp hi with hi | hi
    · exact h i hi
    · rw [List.mem_singleton.mp hi]
      exact ⟨at', hinfo⟩

theorem rendered_nil : Found.Rendered ⟨[], []⟩ := fun _ hi => absurd hi List.not_mem_nil

variable {db} {found : Found}

theorem Found.Rendered.addCallee (h : found.Rendered) (target : Address) :
    (addCallee db found target).Rendered := by
  unfold Callgraph.addCallee
  cases db.functionAt target with
  | none => exact h.add target rfl
  | some func => exact h.add func.startAddress rfl

theorem Found.Rendered.foldl {α : Type*} {f : Found → α → Found} {xs : List α}
    (h : found.Rendered) (hf : ∀ x found, Found.Rendered found → (f found x).Rendered) :
    (xs.foldl f found).Rendered := by
  induction xs generalizing found with
  | nil => exact h
  | cons x xs ih => exact ih (hf x found h)

theorem Found.Rendered.calleesAt (h : found.Rendered) (address : Address) :
    (calleesAt db address found).Rendered := by
  have hcalls : (((db.xrefsFrom address).filter XRef.isCall).foldl
      (fun callees xref => Callgraph.addCallee db callees xref.target) found).Rendered :=
    h.foldl fun xref _ hfound => hfound.addCallee xref.target
  unfold Callgraph.calleesAt
  dsimp only
  split_ifs
  · cases directCallTarget db address with
    | none => exact hcalls
    | some target => exact hcalls.addCallee target
  · exact hcalls

theorem Found.Rendered.walkCallees (h : found.Rendered) (stop current : Address) :
    (walkCallees db stop current found).Rendered := by
  fun_induction Callgraph.walkCallees db stop current found with
  | case1 => exact h.calleesAt _
  | case2 current found _ next _ _ ih => exact ih (h.calleesAt current)
  | case3 => exact h.calleesAt _
  | case4 => exact h

theorem rendered_handleCallees {address : Address} {infos : List FunctionInfo}
    (h : handleCallees (some db) address = .ok infos) : ∀ info ∈ infos,
    ∃ at' : Address, info.address = hexText at' := by
  unfold handleCallees at h
  cases hfunc : db.functionAt address with
  | none =>
    simp only [hfunc] at h
    exact nomatch h
  | some func =>
    simp only [hfunc, Except.ok.injEq] at h
    rw [← h]
    exact rendered_nil.walkCallees _ _

theorem rendered_handleCallers {address : Address} {infos : List FunctionInfo}
    (h : handleCallers (some db) address = .ok infos) : ∀ info ∈ infos,
    ∃ at' : Address, info.address = hexText at' := by
  unfold handleCallers at h
  cases hfunc : db.functionAt address with
  | none =>
    simp only [hfunc] at h
    exact nomatch h
  | some func =>
    simp only [hfunc, Except.ok.injEq] at h
    rw [← h]
    apply rendered_nil.foldl
    intro xref found hfound
    unfold addCaller
    split_ifs
    · cases db.functionAt xref.source with
      | none => exact hfound
      | some caller => exact hfound.add caller.startAddress rfl
    · exact hfound

end IdaMcp.Callgraph
