import PredictionMarketMonitor.PageItems

set_option autoImplicit false

/-!
# Comments of one Manifold market

`manifold_contracts.py` and `manifold_normalization.py`: the values of the
provider boundary, and the plain text of a TipTap document.
-/
namespace PredictionMarketMonitor.ManifoldComments

open CanonicalJson CivilTime Sha256
open CollectionModels (Language)
open PageItems (computeBodyBytes computeContentHash)

/-- A JSON value as the reader returns it, with the floats of the language. -/
inductive JsonValue (F : Type)
  | null
  | bool (b : Bool)
  | int (i : ℤ)
  | float (x : F)
  | str (s : Text)
  | list (items : List (JsonValue F))
  | dict (fields : List (Text × JsonValue F))

def marketOrigin : String := "https://manifold.markets/market/"

/-- Market fields permitted beyond the provider boundary. -/
structure ManifoldMarket where
  id : String
  question : String
  neutralUrl : String
  id_length : 1 ≤ id.length ∧ id.length ≤ 300
  question_length : 1 ≤ question.length ∧ question.length ≤ 20000
  neutralUrl_origin : marketOrigin.toList <+: neutralUrl.toList

/-- Only comment fields permitted to reach text normalization. -/
structure ManifoldCommentWire (F : Type) where
  id : String
  contractId : String
  createdTime : ℕ
  content : JsonValue F
  id_length : 1 ≤ id.length ∧ id.length ≤ 300
  contractId_length : 1 ≤ contractId.length ∧ contractId.length ≤ 300

/-- What is used of the language: the normal form of text, the reader of JSON text, and
    `datetime.fromtimestamp` of a number of milliseconds where it does not raise. -/
structure Runtime (F : Type) where
  nfc : Text → Text
  validateJson : Text → Option (JsonValue F)
  fromtimestamp : ℕ → Option Instant

inductive ManifoldCommentSkipCode
  | contractIdMismatch | createdTimeInvalid | empty | deleted | system | unparseable
deriving DecidableEq

section Tiptap
variable {F : Type}

def get (key : String) (fields : List (Text × JsonValue F)) : Option (JsonValue F) :=
  (fields.find? (fun field => field.1 = key.toList)).map Prod.snd

/-- The value under `"type"`, where it is a string. -/
def nodeType (fields : List (Text × JsonValue F)) : Option Text :=
  match get "type" fields with
  | some (.str name) => some name
  | _ => none

mutual

def renderNode : JsonValue F → Option Text
  | .dict fields =>
    if nodeType fields = some "text".toList then
      match get "text" fields with
      | some (.str text) => some text
      | _ => none
    else if nodeType fields = some "hardBreak".toList then some ['\n']
    else if nodeType fields ∈ ["paragraph", "codeBlock"].map (fun name => some name.toList) then
      renderChildren [] fields
    else if nodeType fields ∈
        ["blockquote", "bulletList", "orderedList", "listItem"].map (fun name => some name.toList) then
      renderChildren ['\n'] fields
    else none
  | _ => none

/-- Goes through the fields up to `"content"`, without which a node has no children. -/
def renderChildren (separator : Text) : List (Text × JsonValue F) → Option Text
  | [] => some []
  | (key, value) :: rest =>
    if key = "content".toList then
      match value with
      | .list children => (renderNodes children).map (List.intercalate separator)
      | _ => none
    else renderChildren separator rest

def renderNodes : List (JsonValue F) → Option (List Text)
  | [] => some []
  | node :: rest => do
    let rendered ← renderNode node
    let others ← renderNodes rest
    return rendered :: others

end

variable (r : Runtime F)

def decodeContent : JsonValue F → Except ManifoldCommentSkipCode (JsonValue F)
  | .str serialized =>
    match r.validateJson serialized with
    | some document => .ok document
    | none => .error .unparseable
  | content => .ok content

def tiptapToNfcText (content : JsonValue F) : Except ManifoldCommentSkipCode Text :=
  match decodeContent r content with
  | .error code => .error code
  | .ok (.dict root) =>
    if nodeType root = some "deleted".toList then .error .deleted
    else if nodeType root = some "system".toList then .error .system
    else if nodeType root = some "doc".toList then
      match renderChildren ['\n', '\n'] root with
      | some rendered => .ok (r.nfc rendered)
      | none => .error .unparseable
    else .error .unparseable
  | .ok _ => .error .unparseable

end Tiptap

def maxManifoldBodyBytes : ℕ := 262144

structure ManifoldNormalizedComment where
  sourcePostId : String
  canonicalUrl : String
  title : String
  body : String
  publishedAt : Instant
  language : Language
  contentHash : Digest
  sizeBytes : ℕ

structure ManifoldRejectedOversize where
  sourcePostId : String
  canonicalUrl : String
  contentHash : Digest
  sizeBytes : ℕ

structure ManifoldSkippedComment where
  sourcePostId : String
  canonicalUrl : String
  code : ManifoldCommentSkipCode

inductive ManifoldNormalizationResult
  | normalized (comment : ManifoldNormalizedComment)
  | rejectedOversize (comment : ManifoldRejectedOversize)
  | skipped (comment : ManifoldSkippedComment)

section Normalization
variable {F : Type} (r : Runtime F)

def skip (comment : ManifoldCommentWire F) (market : ManifoldMarket) (code : ManifoldCommentSkipCode) :
    ManifoldNormalizationResult :=
  .skipped ⟨comment.id, market.neutralUrl, code⟩

def normalizeManifoldComment (market : ManifoldMarket) (comment : ManifoldCommentWire F) :
    ManifoldNormalizationResult :=
  if comment.contractId ≠ market.id then skip comment market .contractIdMismatch
  else
    match tiptapToNfcText r comment.content with
    | .error code => skip comment market code
    | .ok [] => skip comment market .empty
    | .ok text =>
      match r.fromtimestamp comment.createdTime with
      | none => skip comment market .createdTimeInvalid
      | some publishedAt =>
        let body := String.ofList text
        let title := String.ofList (r.nfc market.question.toList)
        let contentHash := computeContentHash r.nfc title body
        let sizeBytes := computeBodyBytes r.nfc body
        if maxManifoldBodyBytes < sizeBytes then
          .rejectedOversize
            { sourcePostId := comment.id, canonicalUrl := market.neutralUrl,
              contentHash := contentHash, sizeBytes := sizeBytes }
        else
          .normalized
            { sourcePostId := comment.id, canonicalUrl := market.neutralUrl, title := title,
              body := body, publishedAt := publishedAt, language := .en,
              contentHash := contentHash, sizeBytes := sizeBytes }

/-- What a result says of its comment and market, and of the size of the body. -/
def Describes (market : ManifoldMarket) (comment : ManifoldCommentWire F) :
    ManifoldNormalizationResult → Prop
  | .normalized n => n.sourcePostId = comment.id ∧ n.canonicalUrl = market.neutralUrl ∧
      n.sizeBytes = computeBodyBytes r.nfc n.body ∧ n.sizeBytes ≤ maxManifoldBodyBytes
  | .rejectedOversize n => n.sourcePostId = comment.id ∧ n.canonicalUrl = market.neutralUrl ∧
      maxManifoldBodyBytes < n.sizeBytes
  | .skipped n => n.sourcePostId = comment.id ∧ n.canonicalUrl = market.neutralUrl

theorem normalize_describes (market : ManifoldMarket) (comment : ManifoldCommentWire F) :
    Describes r market comment (normalizeManifoldComment r market comment) := by
  unfold normalizeManifoldComment
  split
  · exact ⟨rfl, rfl⟩
  split
  · exact ⟨rfl, rfl⟩
  · exact ⟨rfl, rfl⟩
  split
  · exact ⟨rfl, rfl⟩
  dsimp only
  split
  · exact ⟨rfl, rfl, by assumption⟩
  · exact ⟨rfl, rfl, rfl, Nat.le_of_not_lt (by assumption)⟩

end Normalization

end PredictionMarketMonitor.ManifoldComments
