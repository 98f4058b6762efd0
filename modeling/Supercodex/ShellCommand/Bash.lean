import Supercodex.Library.ShellQuoting

/-!
# Plain commands of a script (`shell-command/src/bash.rs`)

The words of the commands in a script are read off its parse tree, when the tree holds nothing but words
and quoted strings joined by safe operators. The parse tree is given: `SyntaxTree` states what
`tree-sitter-bash` promises about the text of its nodes and their order.
-/

namespace Supercodex.ShellCommand

open ShellQuoting

/-- The kind of a node. A token that is not named is its text. -/
inductive NodeKind where
  | program
  | list
  | pipeline
  | command
  | commandName
  | word
  | string
  | stringContent
  | rawString
  | number
  | concatenation
  | other (name : Text)
  | token (text : Text)
deriving DecidableEq

/-- `Node::is_named`. -/
def NodeKind.isNamed : NodeKind → Bool
  | token _ => false
  | _ => true

/-- `ALLOWED_KINDS`. -/
def allowedKinds : List NodeKind :=
  [.program, .list, .pipeline, .command, .commandName, .word, .string, .stringContent, .rawString,
    .number, .concatenation]

/-- `ALLOWED_PUNCT_TOKENS`. -/
def allowedPunctTokens : List Text :=
  ["&&".toList, "||".toList, ";".toList, "|".toList, "\"".toList, "'".toList]

/-- Does `try_parse_word_only_commands_sequence` go on at a node of this kind? -/
def isAllowed (kind : NodeKind) : Bool :=
  match kind with
  | .token text =>
    !(text.any ("&;|".toList.contains ·) && !allowedPunctTokens.contains text) &&
      (allowedPunctTokens.contains text || Text.trim text == [])
  | kind => allowedKinds.contains kind

/-- `tree_sitter::Node`, with the text that it stands for. -/
inductive Node where
  | mk (kind : NodeKind) (startByte : ℕ) (text : Text) (children : List Node)

namespace Node

/-- `Node::kind`. -/
def kind : Node → NodeKind
  | mk kind _ _ _ => kind

/-- `Node::start_byte`. -/
def startByte : Node → ℕ
  | mk _ startByte _ _ => startByte

/-- `Node::utf8_text`. -/
def text : Node → Text
  | mk _ _ text _ => text

/-- `Node::children`. -/
def children : Node → List Node
  | mk _ _ _ children => children

/-- `Node::named_children`. -/
def namedChildren (node : Node) : List Node := node.children.filter fun child => child.kind.isNamed

mutual

/-- The number of nodes in a tree. -/
def count : Node → ℕ
  | mk _ _ _ children => 1 + countAll children

/-- The number of nodes in some trees. -/
def countAll : List Node → ℕ
  | [] => 0
  | node :: nodes => count node + countAll nodes

end

mutual

/-- The nodes of a tree in source order. -/
def nodes : Node → List Node
  | mk kind startByte text children => mk kind startByte text children :: nodesOfAll children

/-- The nodes of some trees in source order. -/
def nodesOfAll : List Node → List Node
  | [] => []
  | node :: rest => nodes node ++ nodesOfAll rest

end

/-- The simple commands in source order. -/
def commandNodes (node : Node) : List Node := node.nodes.filter fun n => n.kind = .command

/-- What the text of a node holds. The text of a word is bare, and so is that of a number without an
expansion; a string of nothing but content is text between double quotes, a raw string between single
quotes, and the parts of a plain concatenation and of the name of a command follow each other without a
gap. -/
def Grammatical (node : Node) : Prop :=
  match node.kind with
  | .word => Bare node.text
  | .number => (∀ child ∈ node.children, isAllowed child.kind = true) → Bare node.text
  | .string => (∀ part ∈ node.namedChildren, part.kind = .stringContent) →
      ∃ body, node.text = (Piece.double body).source ∧ Between body
  | .rawString => ∃ body, node.text = (Piece.single body).source ∧ '\'' ∉ body
  | .concatenation => (∀ child ∈ node.children, isAllowed child.kind = true) →
      node.text = node.namedChildren.flatMap text
  | .commandName => ∃ child, node.namedChildren = [child] ∧ node.text = child.text
  | _ => True

lemma countAll_append (nodes nodes' : List Node) :
    countAll (nodes ++ nodes') = countAll nodes + countAll nodes' := by
  induction nodes with
  | nil => simp [countAll]
  | cons node nodes ih =>
    rw [List.cons_append, countAll, countAll, ih]
    omega

lemma countAll_reverse (nodes : List Node) : countAll nodes.reverse = countAll nodes := by
  induction nodes with
  | nil => rfl
  | cons node nodes ih =>
    rw [List.reverse_cons, countAll_append, ih, countAll, countAll, countAll]
    omega

lemma count_eq (node : Node) : node.count = 1 + countAll node.children := by
  cases node
  rfl

end Node

/-- A parse tree without errors, or one that has some. -/
structure SyntaxTree where
  root : Node
  hasError : Bool
  grammatical : hasError = false → ∀ node ∈ root.nodes, node.Grammatical
  ordered : hasError = false →
    root.commandNodes.Pairwise fun node node' => node.startByte < node'.startByte

/-- The walk over the nodes, whose top of the stack is the head of the list. -/
def collectCommands (stack commandNodes : List Node) : Option (List Node) :=
  match stack with
  | [] => some commandNodes
  | node :: stack =>
    if isAllowed node.kind then
      collectCommands (node.children.reverse ++ stack)
        (if node.kind = .command then commandNodes ++ [node] else commandNodes)
    else none
termination_by Node.countAll stack
decreasing_by
  rw [Node.countAll_append, Node.countAll_reverse, Node.countAll, Node.count_eq]
  omega

/-- `parse_double_quoted_string`. -/
def parseDoubleQuotedString (node : Node) : Option Text :=
  if node.kind ≠ .string then none
  else if node.namedChildren.any fun part => part.kind ≠ .stringContent then none
  else (Text.stripPrefix ['"'] node.text).bind (Text.stripSuffix ['"'])

/-- `parse_raw_string`. -/
def parseRawString (node : Node) : Option Text :=
  if node.kind ≠ .rawString then none
  else (Text.stripPrefix ['\''] node.text).bind (Text.stripSuffix ['\''])

/-- A part of a concatenation in `parse_plain_command_from_node`. -/
def parsePart (part : Node) : Option Text :=
  match part.kind with
  | .word => some part.text
  | .number => some part.text
  | .string => parseDoubleQuotedString part
  | .rawString => parseRawString part
  | _ => none

/-- A child in `parse_plain_command_from_node`. -/
def parseWord (child : Node) : Option Text :=
  match child.kind with
  | .commandName => do
    let wordNode ← child.namedChildren.head?
    if wordNode.kind = .word then some wordNode.text else none
  | .word => some child.text
  | .number => some child.text
  | .string => parseDoubleQuotedString child
  | .rawString => parseRawString child
  | .concatenation => do
    let parts ← child.namedChildren.mapM parsePart
    if parts.flatten = [] then none else some parts.flatten
  | _ => none

/-- `parse_plain_command_from_node`. -/
def parsePlainCommandFromNode (cmd : Node) : Option (List Text) :=
  if cmd.kind = .command then cmd.namedChildren.mapM parseWord else none

/-- `try_parse_word_only_commands_sequence`. -/
def tryParseWordOnlyCommandsSequence (tree : SyntaxTree) : Option (List (List Text)) :=
  if tree.hasError then none
  else do
    let commandNodes ← collectCommands [tree.root] []
    let sorted := commandNodes.mergeSort fun a b => decide (a.startByte ≤ b.startByte)
    sorted.mapM parsePlainCommandFromNode

/-! ## What bash runs -/

/-- The arguments that bash makes of the words of a command. -/
def bashArguments (cmd : Node) : List Text :=
  cmd.namedChildren.map fun child => quoteRemoval .unquoted child.text

/-- The argument lists of the simple commands of a script, in source order. -/
def bashCommands (tree : SyntaxTree) : List (List Text) := tree.root.commandNodes.map bashArguments

end Supercodex.ShellCommand
