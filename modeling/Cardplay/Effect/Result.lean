import Cardplay.Effect.Kind
import Cardplay.State.Record

/-!
# Results

What an effect leads to: whether it applied, the state it leaves, messages in causal order and open
metadata. A failure that knows its reason carries it in the metadata under `failure`.
-/

set_option autoImplicit false

namespace Cardplay

structure Result where
  success : Bool
  state : GameState
  messages : List String := []
  metadata : Option (OrderedMap Value) := none
deriving Inhabited

namespace Result

def ok (state : GameState) (messages : List String) : Result :=
  { success := true, state, messages }

def fail (state : GameState) (messages : List String) (reason : Option Value) : Result :=
  { success := false, state, messages,
    metadata := reason.map fun v => .ofList [("failure", v)] }

def reason? (r : Result) : Option Value := r.metadata.bind (OrderedMap.get? · "failure")

/-- The reason that an enclosing group passes on: the result's own unless it is empty. -/
def reasonOrChild (r : Result) : Value :=
  match r.reason? with
  | some v => if v.truthy then v else .str FailureReason.childFailed.name
  | none => .str FailureReason.childFailed.name

/-- The same result with earlier messages in front. -/
def after (r : Result) (earlier : List String) : Result :=
  { r with messages := earlier ++ r.messages }

/-- Reads the fields of a result; a state given as such stands for the field `new_state`. -/
def ofFields (given : Option GameState) (fields : Fields) : Reading Result :=
  (fun success state messages metadata (_ : Unit) => { success, state, messages, metadata })
    <$> fields.required "success" Value.readBoolean
    <*> given.elim (fields.required "new_state" GameState.ofValue) .read
    <*> fields.optional "messages" (Value.readItems .notList Value.readString) []
    <*> fields.optional "metadata" readMetadata none
    <*> fields.closed ["success", "new_state", "messages", "metadata"]
where
  readMetadata : Value → Reading (Option (OrderedMap Value))
    | .null => .read none
    | v => some <$> v.readEntries .read

end Result

end Cardplay
