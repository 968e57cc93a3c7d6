import PredictionMarketMonitor.CalendarText
import PredictionMarketMonitor.PythonText

set_option autoImplicit false

/-!
# The document of a DCInside view page

The text helpers of `dcinside_html.py` and `datetime.strptime` with the format
of the page, on the parts that the parser has collected.
-/
namespace PredictionMarketMonitor.DCInsideDocument

open CanonicalJson CivilTime PythonText

/-- `[^\S\n]` -/
def isBlank (c : Char) : Bool := isspace c && c != '\n'

def collapseBlanks : Text → Text
  | [] => []
  | c :: rest =>
    if isBlank c then
      if (rest.head?.map isBlank).getD false then collapseBlanks rest else ' ' :: collapseBlanks rest
    else c :: collapseBlanks rest

/-- Of every run of newlines two are kept; `run` is how many stand directly before. -/
def collapseNewlines (run : ℕ) : Text → Text
  | [] => []
  | '\n' :: rest =>
    if run < 2 then '\n' :: collapseNewlines (run + 1) rest else collapseNewlines (run + 1) rest
  | c :: rest => c :: collapseNewlines 0 rest

def singleLine (parts : List Text) : Text := strip (collapseBlanks parts.flatten)

def bodyText (parts : List Text) : Text :=
  let lines := (splitlines (collapseBlanks parts.flatten)).map strip
  collapseNewlines 0 (['\n'].intercalate (lines.filter (· ≠ [])))

/-- One way to match at the start of a text, by what each character has to be. -/
def matchFixed : List (Char → Bool) → Text → Option (Text × Text)
  | [], text => some ([], text)
  | _ :: _, [] => none
  | allowed :: rest, c :: text =>
    if allowed c then (matchFixed rest text).map fun m => (c :: m.1, m.2) else none

/-- The ways to match a directive, in the order in which they are tried. -/
def directive (alternatives : List (List (Char → Bool))) (text : Text) : List (Text × Text) :=
  alternatives.filterMap (matchFixed · text)

def only (c : Char) : Char → Bool := (· == c)
def between (low high : Char) (c : Char) : Bool := low ≤ c && c ≤ high

def yearDirective := directive [[isdecimal, isdecimal, isdecimal, isdecimal]]
def monthDirective := directive
  [[only '1', between '0' '2'], [only '0', between '1' '9'], [between '1' '9']]
def dayDirective := directive
  [[only '3', between '0' '1'], [between '1' '2', isdecimal], [only '0', between '1' '9'],
   [between '1' '9'], [only ' ', between '1' '9']]
def hourDirective := directive [[only '2', between '0' '3'], [between '0' '1', isdecimal], [isdecimal]]
def minuteDirective := directive [[between '0' '5', isdecimal], [isdecimal]]
def secondDirective := directive [[only '6', between '0' '1'], [between '0' '5', isdecimal], [isdecimal]]

def spaceDirective (text : Text) : List (Text × Text) :=
  let spaces := (text.takeWhile isspace).length
  (List.range spaces).reverse.map fun n => text.splitAt (n + 1)

/-- The first match of all directives, going back to later alternatives. -/
def firstMatch : List (Text → List (Text × Text)) → Text → Option (List Text × Text)
  | [], text => some ([], text)
  | directive :: rest, text =>
    (directive text).findSome? fun m => (firstMatch rest m.2).map fun found => (m.1 :: found.1, found.2)

/-- `%Y-%m-%d %H:%M:%S` -/
def publishedFormat : List (Text → List (Text × Text)) :=
  [yearDirective, directive [[only '-']], monthDirective, directive [[only '-']], dayDirective,
   spaceDirective, hourDirective, directive [[only ':']], minuteDirective, directive [[only ':']],
   secondDirective]

def daysInMonth (year month : ℤ) : ℤ :=
  if month = 2 then
    if year % 4 = 0 ∧ (year % 100 ≠ 0 ∨ year % 400 = 0) then 29 else 28
  else if month ∈ [4, 6, 9, 11] then 30 else 31

/-- `datetime.strptime`, or nothing where it raises `ValueError`. -/
def strptime (text : Text) : Option Instant :=
  match firstMatch publishedFormat text with
  | some ([year, _, month, _, day, _, hour, _, minute, _, second], []) =>
    let year : ℤ := intOf year
    let month : ℤ := intOf month
    let day : ℤ := intOf day
    let second : ℤ := intOf second
    -- the directives bound all fields but these
    if 1 ≤ year ∧ day ≤ daysInMonth year month ∧ second ≤ 59 then
      some (seconds (daysFromCivil (year, month, day) * 86400 + intOf hour * 3600 + intOf minute * 60 + second))
    else none
  | _ => none

/-- A contract failure with its code, or an exception that the parser does not catch: of a number
    with too many digits, or of a time before the first year. -/
inductive DocumentError
  | contract (code : String)
  | valueError (digits : ℕ)
  | overflowError
deriving DecidableEq

def maxStrDigits : ℕ := 4300

def count (parts : List Text) : Except DocumentError ℕ :=
  let digits := (parts.flatten.dropWhile (!isdecimal ·)).takeWhile isdecimal
  if maxStrDigits < digits.length then .error (.valueError digits.length) else .ok (intOf digits)

structure DCInsidePostDocument where
  sourcePostId : Text
  title : Text
  body : Text
  publishedAt : Instant
  commentsCount : ℕ
  upvoteOrScore : ℕ
deriving DecidableEq

def astimezoneUtc (kst : Instant) : Except DocumentError Instant :=
  let utc := kst - seconds (9 * 3600)
  if utc < seconds (daysFromCivil (1, 1, 1) * 86400) then .error .overflowError else .ok utc

/-- What the parser has collected of a view page. -/
structure ViewParts where
  titleParts : List Text := []
  bodyParts : List Text := []
  scoreParts : List Text := []
  commentParts : List Text := []
  publishedRaw : Option Text := none
deriving DecidableEq

def document (parts : ViewParts) (sourcePostId : Text) : Except DocumentError DCInsidePostDocument := do
  let title := singleLine parts.titleParts
  match title, parts.publishedRaw with
  | _ :: _, some publishedRaw =>
    match strptime publishedRaw with
    | none => throw (.contract "published_timestamp_invalid")
    | some published =>
      let publishedAt ← astimezoneUtc published
      let body := bodyText parts.bodyParts
      let commentsCount ← count parts.commentParts
      let upvoteOrScore ← count parts.scoreParts
      return { sourcePostId, title, body, publishedAt, commentsCount, upvoteOrScore }
  | _, _ => throw (.contract "required_post_fields_missing")

example : document ⟨[" a\t\tb ".toList], ["x\n\n\n y".toList], [], ["12 comments".toList],
    some "2024-02-29 09:00:00".toList⟩ [] =
      .ok ⟨[], "a b".toList, "x\ny".toList, seconds (19782 * 86400), 12, 0⟩ := by
  decide +kernel

end PredictionMarketMonitor.DCInsideDocument
