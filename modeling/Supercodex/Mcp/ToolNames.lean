import Supercodex.History.Truncation
import Supercodex.Library.FreshNames
import Mathlib.Data.List.AList

/-!
# Model-visible tool names (`codex-mcp/src/mcp_tool_names.rs`)

Tools of MCP servers get names that the Responses API accepts: sanitized, at most 64 bytes long and
distinct. Collisions are told apart by digits of a SHA-1 digest of the raw identity, and the last
pass retries with further digests until the name is unused. The digest function is a parameter.
-/

namespace Supercodex.Mcp

open History (byteLen)

/-- `rmcp::model::Tool`: its name, and the rest of the definition as one text. -/
structure Tool where
  name : Text
  definition : Text
deriving DecidableEq

/-- `ToolInfo`. -/
structure ToolInfo where
  serverName : Text
  callableName : Text
  callableNamespace : Text
  serverInstructions : Option Text
  tool : Tool
  connectorId : Option Text
  connectorName : Option Text
  pluginDisplayNames : List Text
  connectorDescription : Option Text
deriving DecidableEq

/-- `MCP_TOOL_NAME_DELIMITER`. -/
def mcpToolNameDelimiter : Text := "__".toList

/-- `MAX_TOOL_NAME_LENGTH`. -/
def maxToolNameLength : ℕ := 64

/-- `CALLABLE_NAME_HASH_LEN`. -/
def callableNameHashLen : ℕ := 12

/-! ## Sanitized names -/

/-- The characters that `sanitize_responses_api_tool_name` keeps. -/
def isToolNameChar (c : Char) : Bool := c.isAlphanum || c == '_'

/-- `sanitize_responses_api_tool_name`. -/
def sanitizeResponsesApiToolName (name : Text) : Text :=
  let sanitized := name.map fun c => if isToolNameChar c then c else '_'
  if sanitized.isEmpty then ['_'] else sanitized

/-- `truncate_name`. -/
def truncateName (value : Text) (maxLen : ℕ) : Text := value.take maxLen

/-! ## Hash suffixes -/

section Hashes

/- `sha1_hex`, the hexadecimal SHA-1 digest. -/
variable (sha1Hex : Text → Text)

/-- `callable_name_hash_suffix`. -/
def callableNameHashSuffix (rawIdentity : Text) : Text :=
  '_' :: (sha1Hex rawIdentity).take callableNameHashLen

/-- `append_hash_suffix`. -/
def appendHashSuffix (value rawIdentity : Text) : Text :=
  value ++ callableNameHashSuffix sha1Hex rawIdentity

/-- `append_namespace_hash_suffix`: the suffix stands before a delimiter at the end. -/
def appendNamespaceHashSuffix (callableNamespace rawIdentity : Text) : Text :=
  if mcpToolNameDelimiter.isSuffixOf callableNamespace then
    callableNamespace.take (callableNamespace.length - mcpToolNameDelimiter.length) ++
      callableNameHashSuffix sha1Hex rawIdentity ++ mcpToolNameDelimiter
  else appendHashSuffix sha1Hex callableNamespace rawIdentity

/-- `fit_callable_parts_with_hash`. -/
def fitCallablePartsWithHash (callableNamespace toolName rawIdentity : Text) : Text × Text :=
  let suffix := callableNameHashSuffix sha1Hex rawIdentity
  let maxToolLen := maxToolNameLength - byteLen callableNamespace
  if byteLen suffix ≤ maxToolLen then
    let prefixLen := maxToolLen - byteLen suffix
    (callableNamespace, truncateName toolName prefixLen ++ suffix)
  else
    let maxNamespaceLen := maxToolNameLength - byteLen suffix
    (truncateName callableNamespace maxNamespaceLen, suffix)

/-- What is hashed in an attempt of `unique_callable_parts`. -/
def hashInput (rawIdentity : Text) (attempt : ℕ) : Text :=
  if attempt = 0 then rawIdentity else rawIdentity ++ '\x00' :: Nat.toDigits 10 attempt

/-- The attempts that a `u32` counts. -/
def attemptCount : ℕ := 2 ^ 32

/-- `unique_callable_parts`, with the names in use after it. The counter of the attempts saturates,
so that the loop never ends when all its values are tried in vain: there is no result then. -/
def uniqueCallableParts (callableNamespace toolName rawIdentity : Text)
    (usedNames : Finset Text) : Option ((Text × Text × Text) × Finset Text) :=
  let qualifiedName := callableNamespace ++ toolName
  if byteLen qualifiedName ≤ maxToolNameLength ∧ qualifiedName ∉ usedNames then
    some ((callableNamespace, toolName, qualifiedName), insert qualifiedName usedNames)
  else
    let parts := fun attempt =>
      fitCallablePartsWithHash sha1Hex callableNamespace toolName (hashInput rawIdentity attempt)
    let name := fun attempt => (parts attempt).1 ++ (parts attempt).2
    (FreshNames.firstFresh name usedNames attemptCount 0).map fun attempt =>
      (((parts attempt).1, (parts attempt).2, name attempt), insert (name attempt) usedNames)

end Hashes

/-! ## Qualification -/

/-- `CallableToolCandidate`. -/
structure CallableToolCandidate where
  tool : ToolInfo
  rawNamespaceIdentity : Text
  rawToolIdentity : Text
  callableNamespace : Text
  callableName : Text

/-- What tells the namespace of a tool apart: server, namespace and connector. -/
def ToolInfo.rawNamespaceIdentity (tool : ToolInfo) : Text :=
  tool.serverName ++ '\x00' :: tool.callableNamespace ++ '\x00' :: tool.connectorId.getD []

/-- What tells a tool apart: that of its namespace, its callable name and its own name. -/
def ToolInfo.rawToolIdentity (tool : ToolInfo) : Text :=
  tool.rawNamespaceIdentity ++ '\x00' :: tool.callableName ++ '\x00' :: tool.tool.name

/-- The candidate pushed for a tool. -/
def ToolInfo.candidate (tool : ToolInfo) : CallableToolCandidate where
  tool := tool
  rawNamespaceIdentity := tool.rawNamespaceIdentity
  rawToolIdentity := tool.rawToolIdentity
  callableNamespace := sanitizeResponsesApiToolName tool.callableNamespace
  callableName := sanitizeResponsesApiToolName tool.callableName

/-- The first loop of `qualify_tools`: a tool whose identity was seen is skipped. -/
def collectCandidates (seenRawNames : Finset Text) : List ToolInfo → List CallableToolCandidate
  | [] => []
  | tool :: tools =>
    if tool.rawToolIdentity ∈ seenRawNames then collectCandidates seenRawNames tools
    else tool.candidate :: collectCandidates (insert tool.rawToolIdentity seenRawNames) tools

section Collisions

variable {β : Type} [DecidableEq β]

/-- The entry of a base in `namespace_identities_by_base` or `tool_identities_by_base`. -/
def identitiesByBase (base : CallableToolCandidate → β) (identity : CallableToolCandidate → Text)
    (candidates : List CallableToolCandidate) (key : β) : Finset Text :=
  ((candidates.filter fun candidate => base candidate = key).map identity).toFinset

/-- A pass over the candidates: those whose base has more than one identity are renamed. -/
def renameColliding (base : CallableToolCandidate → β) (identity : CallableToolCandidate → Text)
    (rename : CallableToolCandidate → CallableToolCandidate)
    (candidates : List CallableToolCandidate) : List CallableToolCandidate :=
  candidates.map fun candidate =>
    if 1 < (identitiesByBase base identity candidates (base candidate)).card then rename candidate
    else candidate

end Collisions

section Qualify

variable (sha1Hex : Text → Text)

/-- The pass over `colliding_namespaces`. -/
def renameCollidingNamespaces (candidates : List CallableToolCandidate) :
    List CallableToolCandidate :=
  renameColliding (·.callableNamespace) (·.rawNamespaceIdentity)
    (fun candidate => { candidate with
      callableNamespace := appendNamespaceHashSuffix sha1Hex candidate.callableNamespace
        candidate.rawNamespaceIdentity }) candidates

/-- The pass over `colliding_tools`. -/
def renameCollidingTools (candidates : List CallableToolCandidate) :
    List CallableToolCandidate :=
  renameColliding (fun candidate => (candidate.callableNamespace, candidate.callableName))
    (·.rawToolIdentity)
    (fun candidate => { candidate with
      callableName := appendHashSuffix sha1Hex candidate.callableName
        candidate.rawToolIdentity }) candidates

/-- `candidates.sort_by`: the order of the raw tool identities. -/
def sortCandidates (candidates : List CallableToolCandidate) : List CallableToolCandidate :=
  candidates.mergeSort fun left right => left.rawToolIdentity ≤ right.rawToolIdentity

/-- The last loop of `qualify_tools`. -/
def allocateNames (usedNames : Finset Text) (qualifiedTools : AList fun _ : Text => ToolInfo) :
    List CallableToolCandidate → Option (AList fun _ : Text => ToolInfo)
  | [] => some qualifiedTools
  | candidate :: candidates => do
    let ((callableNamespace, callableName, qualifiedName), usedNames) ←
      uniqueCallableParts sha1Hex candidate.callableNamespace candidate.callableName
        candidate.rawToolIdentity usedNames
    let tool := { candidate.tool with
      callableNamespace := callableNamespace, callableName := callableName }
    allocateNames usedNames (qualifiedTools.insert qualifiedName tool) candidates

/-- `qualify_tools`; without a result when it never returns. -/
def qualifyTools (tools : List ToolInfo) : Option (AList fun _ : Text => ToolInfo) :=
  let candidates := collectCandidates ∅ tools
  let candidates := renameCollidingNamespaces sha1Hex candidates
  let candidates := renameCollidingTools sha1Hex candidates
  allocateNames sha1Hex ∅ ∅ (sortCandidates candidates)

end Qualify

end Supercodex.Mcp
