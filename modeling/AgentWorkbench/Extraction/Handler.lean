import AgentWorkbench.Python.Definition

/-!
What a handler of a pipeline tells about itself: the prompt that it sends, and the model that it
talks to through a client bound at the top level.
-/
namespace AgentWorkbench.Extraction

open Python

def modelKeywords : List String := ["model", "model_name", "repo_id"]

def invokeMethod : String := "invoke"

def messageConstructor : String := "HumanMessage"

/-- Clients with their models; of two entries with one name the later counts. -/
abbrev ModelBindings := List (String × String)

def modelsOf (call : Call) : List String :=
  call.keywords.filterMap fun (name, value) =>
    if name.any modelKeywords.contains then value.literal? else none

def modelBindings (tree : SourceTree) : ModelBindings :=
  tree.callAssignments.flatMap fun assignment =>
    (modelsOf assignment.call).flatMap fun model => assignment.targets.map (·, model)

def ModelBindings.model? (bindings : ModelBindings) (name : String) : Option String :=
  (bindings.reverse.find? (·.1 = name)).map (·.2)

/-- The text of a message that a user sends, if the expression makes one. -/
def messageText? (e : Expr) : Option String := do
  let call ← e.call?
  guard (call.calleeName? = some messageConstructor)
  let content ← (call.keyword? "content").or call.args.head?
  content.renderedText?

/-- The expressions an argument holds: the items of a list, or itself. -/
def messagesIn : Expr → List Expr
  | .list _ items => items
  | e => [e]

def invocations (tree : SourceTree) (body : Node) : List Call :=
  (tree.callsIn body).filter (·.method? = some invokeMethod)

/-- The first message that an invocation in the body sends; empty if there is none. -/
def prompt (tree : SourceTree) (body : Node) : String :=
  ((invocations tree body).findSome? fun call =>
    call.args.findSome? fun arg => (messagesIn arg).findSome? messageText?).getD ""

/-- The model of the client on which the first invocation is made that has a name for its client;
empty if the name is not bound. -/
def model (tree : SourceTree) (bindings : ModelBindings) (body : Node) : String :=
  (((invocations tree body).findSome? Call.receiver?).bind bindings.model?).getD ""

end AgentWorkbench.Extraction
