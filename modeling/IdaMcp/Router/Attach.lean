import IdaMcp.Remote

namespace IdaMcp.Router

structure Serde where
  fromStr : String → Option Value
  toStringPretty : Value → String
  toString : Value → String

inductive CallToolResponse
  | complete (result : CallToolResult)
  | inputRequired
  | task

def Value.get (v : Value) (key : String) : Option Value :=
  match v with
  | .object fields => fields.lookup key
  | _ => none

def Value.asStr : Value → Option String
  | .string s => some s
  | _ => none

def databaseId (v : Value) : Option String := (Value.get v "database_id").bind Value.asStr

structure Serde.Faithful (j : Serde) : Prop where
  pretty : ∀ fields id, databaseId (.object fields) = some id →
    (j.fromStr (j.toStringPretty (.object fields))).bind databaseId = some id
  compact : ∀ fields id, databaseId (.object fields) = some id →
    (j.fromStr (j.toString (.object fields))).bind databaseId = some id

def insertField (fields : List (String × Value)) (key : String) (v : Value) : List (String × Value) :=
  (key, v) :: fields.filter fun field => field.1 ≠ key

def Content.asText : Content → Option String
  | .text text => some text
  | .other => none

variable (j : Serde)

def withDatabaseId (parsed : Option Value) (id : String) : Option String :=
  match parsed with
  | some (.object fields) =>
    some (j.toStringPretty (.object (insertField fields "database_id" (.string id))))
  | _ => none

def attachWorkspaceDatabaseId (response : CallToolResponse) (id : String) : CallToolResponse × Bool :=
  match response with
  | .complete result =>
    if result.isError = some true then (response, false)
    else
      let parsed := (result.content.head?.bind Content.asText).bind j.fromStr
      if (parsed.bind (Value.get · "status")).bind Value.asStr = some "already_running" then
        (response, false)
      else
        match withDatabaseId j parsed id, result.content with
        | some text, _ :: rest => (.complete { result with content := .text text :: rest }, true)
        | _, content =>
          (.complete { result with content :=
            content ++ [.text (j.toString (.object [("database_id", .string id)]))] }, true)
  | _ => (response, false)

def contentCarries (id : String) (content : Content) : Bool :=
  ((Content.asText content).bind j.fromStr).bind databaseId == some id

def carries (response : CallToolResponse) (id : String) : Bool :=
  match response with
  | .complete result => result.content.any (contentCarries j id)
  | _ => false

theorem databaseId_insertField (fields : List (String × Value)) (id : String) :
    databaseId (.object (insertField fields "database_id" (.string id))) = some id := by
  simp [databaseId, Value.get, Value.asStr, insertField]

theorem contentCarries_pretty (hj : j.Faithful) (fields : List (String × Value)) (id : String) :
    contentCarries j id
      (.text (j.toStringPretty (.object (insertField fields "database_id" (.string id))))) = true := by
  rw [contentCarries, beq_iff_eq]
  exact hj.pretty _ id (databaseId_insertField fields id)

theorem contentCarries_compact (hj : j.Faithful) (id : String) :
    contentCarries j id (.text (j.toString (.object [("database_id", .string id)]))) = true := by
  rw [contentCarries, beq_iff_eq]
  exact hj.compact _ id (databaseId_insertField [] id)

theorem attach_cases (hj : j.Faithful) (response : CallToolResponse) (id : String) :
    ((attachWorkspaceDatabaseId j response id).2 = true ∧
      carries j (attachWorkspaceDatabaseId j response id).1 id = true) ∨
    ((attachWorkspaceDatabaseId j response id).2 = false ∧
      (attachWorkspaceDatabaseId j response id).1 = response) := by
  unfold attachWorkspaceDatabaseId
  cases response with
  | inputRequired | task => exact .inr ⟨rfl, rfl⟩
  | complete result =>
    dsimp only
    split_ifs with herror hrunning
    · exact .inr ⟨rfl, rfl⟩
    · exact .inr ⟨rfl, rfl⟩
    · left
      split
      · next text first rest hreplace hcontent =>
        refine ⟨rfl, ?_⟩
        unfold withDatabaseId at hreplace
        split at hreplace
        · next fields hparsed =>
          cases hreplace
          rw [carries, List.any_cons, contentCarries_pretty j hj, Bool.true_or]
        · cases hreplace
      · refine ⟨rfl, ?_⟩
        rw [carries, List.any_append, List.any_cons, contentCarries_compact j hj, Bool.true_or, Bool.or_true]

end IdaMcp.Router
