import CodeChart.Session.View

/-! The fields of nodes and links by name: reading, setting and taking away. -/
namespace CodeChart.Session

open CodeChart.Graph

def roleField? : GroupRole → String → Option Value
  | .function start _ _ _ _, "func_start" => some (.item start)
  | .function _ input _ _ _, "func_args_input" => some (.item input)
  | .function _ _ head _ _, "body_head" => some (.item head)
  | .function _ _ _ tails _, "body_tails" => some (.items tails)
  | .function _ _ _ _ finish, "func_end" => some (.item finish)
  | .loop test, "cond_node" => some (.item test)
  | .branch test, "cond_node" => some (.item test)
  | .case test, "cond_node" => some (.item test)
  | .returning output _, "output_node" => some (.item output)
  | .returning _ finish, "end_node" => some (.item finish)
  | .selection cases, "cases" => some (.items cases)
  | _, _ => none

def formField? : Form → String → Option Value
  | .decision _ yes _, "connection_yes" => some (.item yes)
  | .decision _ _ no, "connection_no" => some (.item no)
  | .bridge _ parent _ _ _, "parent" => some (.item parent)
  | .bridge _ _ child _ _, "child" => some (.item child)
  | .bridge _ _ _ labels _, "connect_params" => some (.labels labels)
  | .bridge _ _ _ _ link, "connection" => some (.item link)
  | .bridge true parent _ _ _, "cond" => some (.item parent)
  | .bridge true _ child _ _, "sub" => some (.item child)
  | .bridge true .., "YES" => some (.text "yes")
  | .bridge true .., "NO" => some (.text "no")
  | .bridge true _ _ labels _, "yn" => some (.text (",".intercalate (labels.map (·.getD ""))))
  | .group _ head .., "head" => some (.item head)
  | .group _ _ tails _ _, "tails" => some (.items tails)
  | .group _ _ _ definitions _, "_fc_definitions" => some (.text definitions)
  | .group _ _ _ _ connections, "_fc_connections" => some (.text connections)
  | .group role .., field => roleField? role field
  | .box shape, "INPUT" => if shape.word = "inputoutput" then some (.text "input") else none
  | .box shape, "OUTPUT" => if shape.word = "inputoutput" then some (.text "output") else none
  | _, _ => none

def nodeField? (s : Store) (i : Nat) (field : String) : Option Value :=
  let n := s.node i
  if n.absent.contains field then none
  else
    match field with
    | "node_name" => some (.text (s.name i))
    | "node_text" => some (.text n.text)
    | "node_type" => some (.text n.form.word)
    | "connect_direction" => some (.label n.direction)
    | "id" => some (.number n.id)
    | "params" => some (.kind "dict")
    | "connections" =>
      match n.form with
      | .bridge _ _ _ _ link => some (.items [link])
      | _ => some (.items n.links)
    | "ast_object" => n.code.map fun c => .kind c.kind
    | "subject" =>
      match n.form with
      | .group (.selection _) .. => (n.code.bind (·.part? "subject")).map fun p => .kind p.kind
      | _ => none
    | _ => formField? n.form field

/-- The words of an answer can only be read together if there are no gaps among them. -/
def checkWords (i : Nat) (field : String) : Action Unit := do
  match (← getNode i).form, field with
  | .bridge true _ _ labels _, "yn" =>
    match labels.findIdx? Option.isNone with
    | some place => throw (.notText place)
    | none => pure ()
  | _, _ => pure ()

def itemField (item : Item) (field : String) : Action Value := do
  match item with
  | .node i =>
    checkWords i field
    match nodeField? (← get) i field with
    | some v => return v
    | none => lacks item field
  | .link l =>
    match field with
    | "next_node" => return .item (← getLink l).target
    | "params" => return .labels (← getLink l).labels
    | _ => lacks item field
  | .nothing => lacks item field

def follow : Value → List Code.PathStep → Action Value
  | v, [] => return v
  | .item item, .named field :: rest => do follow (← itemField item field) rest
  | .items items, .at i :: rest =>
    match (Code.placeIn items.length i).bind (items[·]?) with
    | some item => follow (.item item) rest
    | none => throw .indexOutOfRange
  | .labels labels, .at i :: rest =>
    match (Code.placeIn labels.length i).bind (labels[·]?) with
    | some l => follow (.label l) rest
    | none => throw .indexOutOfRange
  | v, .named field :: _ => do throw (.noAttribute (v.kindName (← get)) field)
  | v, .at _ :: _ => do throw (.notIndexable (v.kindName (← get)))

def setTest (test : Item) : GroupRole → GroupRole
  | .loop _ => .loop test
  | .branch _ => .branch test
  | .case _ => .case test
  | role => role

def setCases (cases : List Item) : GroupRole → GroupRole
  | .selection _ => .selection cases
  | role => role

def setItemField (i : Nat) (field : String) (target : Item) : Action Unit :=
  match field with
  | "cond_node" => do
    setRole i (setTest target)
    modifyNode i (·.restore field)
  | "head" => setHead i target
  | "connection_yes" => setYes i target
  | "connection_no" => setNo i target
  | _ => pure ()

def setListField (i : Nat) (field : String) (target : List Item) : Action Unit :=
  match field with
  | "cases" => do
    setRole i (setCases target)
    modifyNode i (·.restore field)
  | "tails" => setTails i fun _ => target
  | "connections" => modifyNode i fun n => { n.restore "connections" with links := target }
  | _ => pure ()

def removeField (i : Nat) (field : String) : Action Unit := do
  match nodeField? (← get) i field with
  | some _ => modifyNode i fun n => { n with absent := field :: n.absent }
  | none => lacks (.node i) field

end CodeChart.Session
