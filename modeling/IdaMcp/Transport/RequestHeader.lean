import IdaMcp.Foundation.JsonNumber

namespace IdaMcp.Transport

open Foundation Reader Json

inductive RequestId
  | number (n : ℤ)
  | string (s : String)
deriving DecidableEq, Repr

structure RequestHeader where
  id : Option RequestId
  hasMethod : Bool

structure Serde where
  openMap : Reader UInt8 Unit
  nextKey : Bool → Reader UInt8 (Option String)
  idValue : Reader UInt8 RequestId
  stringValue : Reader UInt8 String
  ignoredValue : Reader UInt8 Unit

def visitValue (serde : Serde) (header : RequestHeader) (key : String) :
    Reader UInt8 RequestHeader :=
  if key = "id" then do
    let id ← serde.idValue
    pure { header with id := some id }
  else if key = "method" then do
    let _ ← serde.stringValue
    pure { header with hasMethod := true }
  else do
    serde.ignoredValue
    pure header

def visitMap (serde : Serde) : ℕ → Bool → RequestHeader → Bytes → RequestHeader
  | 0, _, header, _ => header
  | n + 1, first, header, input =>
    match serde.nextKey first input with
    | some (some key, rest) =>
      match visitValue serde header key rest with
      | some (header, rest) =>
        -- The rest may be a truncated value.
        if header.id.isSome && header.hasMethod then header else visitMap serde n false header rest
      | none => header
    | _ => header

def stripBom : Bytes → Bytes
  | 0xef :: 0xbb :: 0xbf :: rest => rest
  | bytes => bytes

def requestHeader (serde : Serde) (bytes : Bytes) : RequestHeader :=
  match serde.openMap (stripBom bytes) with
  | some (_, rest) => visitMap serde (rest.length + 1) true ⟨none, false⟩ rest
  | none => ⟨none, false⟩

def requestIdFromPrefix (serde : Serde) (bytes : Bytes) : Option RequestId :=
  let header := requestHeader serde bytes
  if header.hasMethod then header.id else none

def digitsValue (ds : Bytes) : ℕ := ds.foldl (fun n d => 10 * n + (d.toNat - 0x30)) 0

def integerValue : Bytes → ℤ
  | 0x2d :: ds => -(digitsValue ds)
  | ds => digitsValue ds

def fitsId (n : ℤ) : Bool := Int64.minValue.toInt ≤ n && n ≤ Int64.maxValue.toInt

def valueId : Json.Value → Option RequestId
  | .string raw => (text raw).map .string
  | .number token =>
    if isInteger token && fitsId (integerValue token) then some (.number (integerValue token))
    else none
  | .other => none

def textOf (raw : Bytes) : Reader UInt8 String := fun input => (text raw).map fun s => (s, input)

/-- The library reads JSON: names and strings with their escapes decoded, a number as far as it goes
and up to the end of the input, and an id from a string or from an integer of 64 bits. -/
structure Serde.ReadsJson (serde : Serde) : Prop where
  openMap : serde.openMap = openObject
  nextKey : ∀ first, serde.nextKey first = do
    let name ← nextName first
    match name with
    | none => pure none
    | some raw =>
      let key ← textOf raw
      pure (some key)
  stringValue : serde.stringValue = do
    colon
    let raw ← string
    textOf raw
  ignoredValue : serde.ignoredValue = do
    colon
    skip
  idString : ∀ input raw rest, (colon >>= fun _ => string) input = some (raw, rest) →
    serde.idValue input = (text raw).map fun s => (.string s, rest)
  idInteger : ∀ input token rest, (colon >>= fun _ => number) input = some (token, rest) →
    isInteger token = true → serde.idValue input =
      if fitsId (integerValue token) then some (.number (integerValue token), rest) else none
  idNeither : ∀ input, (colon >>= fun _ => string) input = none →
    (colon >>= fun _ => number) input = none → serde.idValue input = none

def Correlated (ms : List Member) (id : RequestId) : Prop :=
  (∃ m ∈ ms, m.key = some "method" ∧ ∃ raw, m.value = .string raw) ∧
    ∃ m ∈ ms, m.key = some "id" ∧ valueId m.value = some id

/-- A line that leaves its last `unread` bytes out ends within the integer of its id, after a digit
and after its method. -/
def CutsId (ms : List Member) (unread : ℕ) : Prop :=
  ∃ (before : List Member) (m : Member) (after : List Member) (token : Bytes) (read : ℕ),
    ms = before ++ m :: after ∧
    (∀ x ∈ before, x.key.isSome) ∧
    (∃ x ∈ before, x.key = some "method" ∧ ∃ raw, x.value = .string raw ∧ (text raw).isSome) ∧
    m.key = some "id" ∧ m.value = .number token ∧ m.input.length = unread + read ∧
    0 < read ∧ read < token.length ∧ token.take read ≠ [0x2d] ∧
    fitsId (integerValue (token.take read)) = true

end IdaMcp.Transport
