import IdaMcp.Foundation.Assoc
import IdaMcp.Params.ValueToBytes

namespace IdaMcp.Params.Value

open Foundation

abbrev Fields := List (String × Value)

def asObject : Value → Option Fields
  | object fields => some fields
  | _ => none

def asArray : Value → Option (List Value)
  | array items => some items
  | _ => none

def asStr : Value → Option String
  | string s => some s
  | _ => none

def get (value : Value) (key : String) : Option Value := value.asObject.bind (·.lookup key)

theorem bind_asArray {o : Option Value} {items : List Value} :
    o.bind asArray = some items ↔ o = some (.array items) := by
  rw [Option.bind_eq_some_iff]
  constructor
  · rintro ⟨value, rfl, hvalue⟩
    cases value with
    | array items' => rw [Option.some_inj.mp hvalue]
    | _ => cases hvalue
  · rintro rfl
    exact ⟨_, rfl, rfl⟩

theorem bind_asStr {o : Option Value} {s : String} :
    o.bind asStr = some s ↔ o = some (.string s) := by
  rw [Option.bind_eq_some_iff]
  constructor
  · rintro ⟨value, rfl, hvalue⟩
    cases value with
    | string s' => rw [Option.some_inj.mp hvalue]
    | _ => cases hvalue
  · rintro rfl
    exact ⟨_, rfl, rfl⟩

end IdaMcp.Params.Value
