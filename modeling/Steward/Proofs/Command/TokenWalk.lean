import Steward.Command.Registry
import Steward.Command.Traversal
import Steward.Proofs.Text.Tokens

/-!
# Walking a command tree by tokens

Where a command tree has no assertions and reads nothing but texts, its walk can be
told without a reader.  `TokenWalk.run` works on the list of the line's tokens: a
visited node takes one token, flags are the tokens that begin with a dash, a flag with
a value takes one more, and the next token selects a child.  Arguments that no token
is left for are visited if they are optional.
-/

namespace Steward

variable {F : Type}

/-- A tree without assertions that reads nothing but texts. -/
inductive Node.IsPlain : Node F → Prop where
  | node {head : NodeHead F} {children : List (Node F)} (free : head.assertions = [])
      (reads : head.kind = .literal ∨ head.kind = .argument .string)
      (flags : ∀ flag ∈ head.flags, flag.parser = none ∨ flag.parser = some .string)
      (below : ∀ child ∈ children, child.IsPlain) : IsPlain (.node head children)

namespace Node.IsPlain

variable {node : Node F}

theorem free (plain : node.IsPlain) : node.head.assertions = [] := by
  rcases plain with ⟨free, -, -, -⟩
  exact free

theorem reads (plain : node.IsPlain) :
    node.head.kind = .literal ∨ node.head.kind = .argument .string := by
  rcases plain with ⟨-, reads, -, -⟩
  exact reads

theorem flags (plain : node.IsPlain) :
    ∀ flag ∈ node.head.flags, flag.parser = none ∨ flag.parser = some .string := by
  rcases plain with ⟨-, -, flags, -⟩
  exact flags

theorem children (plain : node.IsPlain) : ∀ child ∈ node.children, child.IsPlain := by
  rcases plain with ⟨-, -, -, below⟩
  exact below

end Node.IsPlain

/-- Whether a name is one of those of a flag. -/
def Flag.isCalled (name : String) (flag : Flag F) : Bool :=
  name == flag.name || flag.aliases.contains name

namespace TokenWalk

/-- What a walk has come to: the nodes visited and the values recorded, in order.  A
switch is recorded without a text. -/
structure Progress (F : Type) where
  chain : List (Node F)
  arguments : List (String × String)
  flags : List (String × Option String)

/-- How a walk ends. -/
inductive Ending (F : Type) where
  | unknownCommand (name : String)
  | unknownFlag (name : String)
  | unknownSubcommand (token : String)
  | noExecutor
  | selected (executor : F)

namespace Progress

def start : Progress F := ⟨[], [], []⟩

/-- The flag that a name stands for: the last one of that name that a visited node
brought. -/
def flag? (progress : Progress F) (name : String) : Option (Flag F) :=
  (progress.chain.flatMap (·.head.flags)).reverse.find? (Flag.isCalled name)

def join (progress : Progress F) (node : Node F) : Progress F :=
  { progress with chain := progress.chain ++ [node] }

/-- Visit a node with the token that is its own. -/
def visit (progress : Progress F) (node : Node F) (own : Token) : Progress F :=
  match node.head.kind with
  | .literal => progress.join node
  | .argument _ =>
    { progress.join node with arguments := progress.arguments ++ [(node.name, own.text)] }

def recordFlag (progress : Progress F) (flag : Flag F) (value : Option String) : Progress F :=
  { progress with flags := progress.flags ++ [(flag.name, value)] }

/-- Where the line ends, the deepest executor on the way is selected. -/
def ending (progress : Progress F) : Ending F :=
  match (progress.chain.filterMap (·.head.executor)).getLast? with
  | none => .noExecutor
  | some executor => .selected executor

end Progress

/-- Take the flags at the front of some tokens; a flag with a value takes the token
behind it.  The answer is what is left, or the name of an unknown flag. -/
def takeFlags : List Token → Progress F → Except String (List Token) × Progress F
  | [], progress => (.ok [], progress)
  | token :: rest, progress =>
    match token.dashed? with
    | none => (.ok (token :: rest), progress)
    | some name =>
      match progress.flag? name with
      | none => (.error name, progress)
      | some flag =>
        match flag.parser with
        | none => takeFlags rest (progress.recordFlag flag none)
        | some _ =>
          match rest with
          | [] => (.ok [], progress.recordFlag flag (some ""))
          | value :: rest => takeFlags rest (progress.recordFlag flag (some value.text))

mutual

/-- Visit an argument that no token was left for, if it is optional. -/
def fill : Node F → Progress F → Progress F × Ending F
  | .node head children, progress =>
    let node : Node F := .node head children
    if node.isLiteral || !head.optional then (progress, progress.ending)
    else fillArgument children (progress.join node)

/-- Fill the first argument among some nodes. -/
def fillArgument : List (Node F) → Progress F → Progress F × Ending F
  | [], progress => (progress, progress.ending)
  | child :: rest, progress =>
    if child.isLiteral then fillArgument rest progress else fill child progress

end

mutual

/-- Visit a node with its own token, and go on below it with those that are left. -/
def visit : Node F → Token → List Token → Progress F → Progress F × Ending F
  | .node head children, own, tokens, progress =>
    match takeFlags tokens (progress.visit (.node head children) own) with
    | (.error name, progress) => (progress, .unknownFlag name)
    | (.ok [], progress) => fillArgument children progress
    | (.ok (next :: rest), progress) =>
      match visitFirst (Node.isSelectedBy next.text) children next rest progress with
      | some course => course
      | none =>
        match visitFirst (!·.isLiteral) children next rest progress with
        | some course => course
        | none => (progress, .unknownSubcommand next.text)

/-- Visit the first of some nodes that is as wanted. -/
def visitFirst (isWanted : Node F → Bool) :
    List (Node F) → Token → List Token → Progress F → Option (Progress F × Ending F)
  | [], _, _, _ => none
  | child :: rest, own, tokens, progress =>
    if isWanted child then some (visit child own tokens progress)
    else visitFirst isWanted rest own tokens progress

end

/-- Walk the tree of the command that the first token names. -/
def run (registry : CommandRegistry F) (first : Token) (rest : List Token) :
    Progress F × Ending F :=
  match registry.get? first.text with
  | none => (.start, .unknownCommand (LowerCase.lower first.text))
  | some command => visit command first rest .start

theorem visitFirst_eq (isWanted : Node F → Bool) (children : List (Node F)) (own : Token)
    (tokens : List Token) (progress : Progress F) :
    visitFirst isWanted children own tokens progress =
      (children.find? isWanted).map fun child => visit child own tokens progress := by
  induction children with
  | nil =>
      rfl
  | cons child rest ih =>
      rw [visitFirst, List.find?_cons, ih]
      cases isWanted child <;> rfl

theorem fillArgument_eq (children : List (Node F)) (progress : Progress F) :
    fillArgument children progress =
      match children.find? (!·.isLiteral) with
      | none => (progress, progress.ending)
      | some child => fill child progress := by
  induction children with
  | nil =>
      rfl
  | cons child rest ih =>
      rw [fillArgument, List.find?_cons, ih]
      cases child.isLiteral <;> rfl

/-- The way that some tokens go on from a node. -/
def choose (children : List (Node F)) (tokens : List Token) (progress : Progress F) :
    Progress F × Ending F :=
  match tokens with
  | [] => fillArgument children progress
  | next :: rest =>
    match (children.find? (Node.isSelectedBy next.text)).or (children.find? (!·.isLiteral)) with
    | some child => visit child next rest progress
    | none => (progress, .unknownSubcommand next.text)

theorem visit_node (head : NodeHead F) (children : List (Node F)) (own : Token)
    (tokens : List Token) (progress : Progress F) :
    visit (.node head children) own tokens progress =
      match takeFlags tokens (progress.visit (.node head children) own) with
      | (.error name, progress) => (progress, .unknownFlag name)
      | (.ok left, progress) => choose children left progress := by
  rw [visit]
  rcases takeFlags tokens (progress.visit (.node head children) own) with ⟨unknown | left, reached⟩
  · rfl
  · cases left with
    | nil =>
        rfl
    | cons next rest =>
        simp only [visitFirst_eq, choose]
        cases children.find? (Node.isSelectedBy next.text) with
        | some child =>
            rfl
        | none =>
            cases children.find? (!·.isLiteral) <;> rfl

theorem Progress.flag?_join (progress : Progress F) (node : Node F) (name : String) :
    (progress.join node).flag? name =
      (node.head.flags.reverse.find? (Flag.isCalled name)).or (progress.flag? name) := by
  rw [flag?, join, List.flatMap_append, List.reverse_append, List.find?_append, flag?]
  simp only [List.flatMap_cons, List.flatMap_nil, List.append_nil]

@[simp]
theorem Progress.flag?_visit (progress : Progress F) (node : Node F) (own : Token) :
    (progress.visit node own).flag? = (progress.join node).flag? := by
  unfold visit
  split <;> rfl

@[simp]
theorem Progress.chain_visit (progress : Progress F) (node : Node F) (own : Token) :
    (progress.visit node own).chain = progress.chain ++ [node] := by
  unfold visit
  split <;> rfl

theorem chain_takeFlags (tokens : List Token) (progress : Progress F) :
    (takeFlags tokens progress).2.chain = progress.chain := by
  fun_induction takeFlags tokens progress <;> simp_all [Progress.recordFlag]

end TokenWalk

end Steward
