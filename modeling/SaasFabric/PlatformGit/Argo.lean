import SaasFabric.PlatformGit.Overlay

/-!
# Moving one chart source's `targetRevision` in an Argo Application

`retarget` reads the document's lines before it edits any: the entries of the `sources:` that
is a direct key of a top-level `spec:`, and each entry's own `repoURL`, `chart` and
`targetRevision`.  Exactly one source has to name the chart, and of it only the revision's value
is replaced.
-/

namespace SaasFabric
namespace PlatformGit
namespace Argo

/-- `Refusal`: why an Application cannot be edited. -/
abbrev Refusal := String

/-- `Line`: a line, its indentation, and what ended it. -/
structure Line where
  content : TextLine
  spaces : TextLine
  rest : TextLine
  terminator : TextLine
deriving DecidableEq

namespace Line

/-- `Line::read`. -/
def read (raw : TextLine) : Line :=
  let (content, terminator) := Text.unterminate raw
  { content, spaces := content.takeWhile (· = ' '), rest := content.dropWhile (· = ' '),
    terminator }

/-- `Line::split`. -/
def split (text : String) : List Line := (Text.splitInclusive text.toList).map read

def indent (line : Line) : Nat := line.spaces.length

def isBlank (line : Line) : Bool := (line.rest.dropWhile isWhitespace).isEmpty

def isSignificant (line : Line) : Bool :=
  let bare := line.rest.dropWhile isWhitespace
  !bare.isEmpty && bare.head? != some '#'

def isTabIndented (line : Line) : Bool := line.rest.head? == some '\t'

def startsADocument (line : Line) : Bool :=
  line.spaces.isEmpty && ['-', '-', '-'].isPrefixOf line.rest

def opensEntry (line : Line) : Bool := line.rest == ['-'] || ['-', ' '].isPrefixOf line.rest

/-- `Line::after_dash`: the first key written on a `- ` line, and the column it starts at. -/
def afterDash (line : Line) : Option (Nat × TextLine) :=
  match line.rest with
  | '-' :: after =>
      let text := after.dropWhile (· = ' ')
      if text.isEmpty then none else some (line.content.length - text.length, text)
  | _ => none

end Line

/-! ## Values -/

def isSeparation (c : Char) : Bool := c = ' ' || c = '\t'

/-- Whether what follows a quoted value is separation. -/
def separated (suffix : TextLine) : Bool := suffix.isEmpty || suffix.head?.any isSeparation

/-- What stands before a comment: the first `#` with separation in front of it. -/
def beforeComment : Option Char → TextLine → TextLine
  | _, [] => []
  | before, c :: rest =>
      if c = '#' && before.any isSeparation then [] else c :: beforeComment (some c) rest

/-- `str::trim_end`. -/
def trimEnd (text : TextLine) : TextLine := (text.reverse.dropWhile isWhitespace).reverse

/-- A quoted value, from behind its opening quote. -/
def splitQuoted (quote : Char) (body : TextLine) : Option (TextLine × TextLine) :=
  match body.span (· != quote) with
  | (_, []) => none
  | (inner, _ :: suffix) =>
      if quote = '"' && inner.contains '\\' then none
      else if separated suffix then some (quote :: inner ++ [quote], suffix)
      else none

/-- `value::split`: a value, and what follows it, exactly as written. -/
def splitValue (tail : TextLine) : Option (TextLine × TextLine) :=
  match tail with
  | [] => some ([], [])
  | c :: body =>
      if c = '#' then some ([], tail)
      else if c = '"' || c = '\'' then splitQuoted c body
      else
        let value := trimEnd (beforeComment none tail)
        some (value, tail.drop value.length)

def isWritableChar (c : Char) : Bool := c.isAlphanum || c = '.' || c = '+' || c = '-'

/-- `is_writable`. -/
def isWritable (version : String) : Bool :=
  version != "" && version.toList.all isWritableChar

/-! ## Keys -/

/-- `Scalar`: one `key: value` line, split so everything but the value can be put back. -/
structure Scalar where
  lead : TextLine
  key : TextLine
  gap : TextLine
  value : TextLine
  suffix : TextLine
deriving DecidableEq

namespace Scalar

/-- `Scalar::read` of what ends a line's content, from behind the characters in `lead`. -/
def readFrom (lead part : TextLine) : Option Scalar :=
  match part.span (· != ':') with
  | (_, []) => none
  | (key, _ :: after) =>
      if after.isEmpty || after.head?.any isSeparation then
        let gap := after.takeWhile isSeparation
        (splitValue (after.dropWhile isSeparation)).map fun (value, suffix) =>
          { lead, key, gap, value, suffix }
      else
        none

/-- `Scalar::read`. -/
def read (line : Line) (part : TextLine) : Option Scalar :=
  if part.isSuffixOf line.content then
    readFrom (line.content.take (line.content.length - part.length)) part
  else
    none

/-- A value between a pair of quotes. -/
def stripQuotes (quote : Char) (value : TextLine) : Option TextLine :=
  match value with
  | c :: inner =>
      if c = quote then
        match inner.reverse with
        | last :: body => if last = quote then some body.reverse else none
        | [] => none
      else none
  | [] => none

/-- `Scalar::unquoted`. -/
def unquoted (scalar : Scalar) : TextLine :=
  ((stripQuotes '"' scalar.value).or (stripQuotes '\'' scalar.value)).getD scalar.value

/-- `Scalar::carries_a_value`. -/
def carriesAValue (scalar : Scalar) : Bool := !scalar.value.isEmpty

/-- `Scalar::opens_a_block`. -/
def opensABlock (scalar : Scalar) : Bool :=
  scalar.value.head? == some '|' || scalar.value.head? == some '>'

/-- A key's line. -/
def render (scalar : Scalar) : TextLine :=
  scalar.lead ++ scalar.key ++ ':' :: scalar.gap ++ scalar.value ++ scalar.suffix

/-- The quotes a value is written in, which a version is written in as well. -/
def quoteOf (value : TextLine) : Except Refusal TextLine :=
  match value with
  | [] => .error "declares a targetRevision with no value"
  | c :: _ =>
      if c = '"' || c = '\'' then .ok [c]
      else if ['|', '>', '{', '[', '&', '*', '!'].contains c then
        .error ("declares a targetRevision that is a block scalar, a flow " ++
          "collection, an anchor, an alias or a tag, none of which is a version to move")
      else .ok []

/-- `Scalar::rewrite`: the key with a version in place of its value. -/
def rewrite (scalar : Scalar) (version : String) : Except Refusal Scalar := do
  let quote ← quoteOf scalar.value
  if isWritable version then
    pure { scalar with value := quote ++ version.toList ++ quote }
  else
    throw ("cannot be moved to '" ++ version ++ "', which is not a version a chart repository " ++
      "publishes and not one YAML would read back as written")

end Scalar

/-! ## Sources -/

/-- `Seen`: one key of a source, with how often it was declared. -/
structure Seen (α : Type) where
  first : Option α
  count : Nat
deriving DecidableEq

def Seen.none {α : Type} : Seen α := { first := .none, count := 0 }

/-- `Seen::record`. -/
def Seen.record {α : Type} (seen : Seen α) (value : α) : Seen α :=
  { first := seen.first.or (some value), count := seen.count + 1 }

/-- `Entry`: one entry of `spec.sources`, and the keys of its own it declared. -/
structure Entry where
  column : Nat
  keys : Option Nat
  repository : Seen TextLine
  chart : Seen TextLine
  target : Seen (Nat × Scalar)
deriving DecidableEq

namespace Entry

/-- `Entry::record`. -/
def record (entry : Entry) (index : Nat) (line : Line) (part : TextLine) : Entry :=
  match Scalar.read line part with
  | none => entry
  | some scalar =>
      if scalar.key = "repoURL".toList then
        { entry with repository := entry.repository.record scalar.unquoted }
      else if scalar.key = "chart".toList then
        { entry with chart := entry.chart.record scalar.unquoted }
      else if scalar.key = "targetRevision".toList then
        { entry with target := entry.target.record (index, scalar) }
      else
        entry

/-- `Entry::opened`. -/
def opened (index : Nat) (line : Line) : Entry :=
  let entry : Entry :=
    { column := line.indent, keys := none, repository := .none, chart := .none, target := .none }
  match line.afterDash with
  | none => entry
  | some (column, first) => { entry with keys := some column }.record index line first

/-- `Entry::observe`. -/
def observe (entry : Entry) (index : Nat) (line : Line) : Entry :=
  if line.opensEntry || line.indent ≤ entry.column then
    entry
  else
    let keys := entry.keys.getD line.indent
    let entry := { entry with keys := some keys }
    if line.indent = keys then entry.record index line line.rest else entry

/-- `Entry::names`. -/
def names (entry : Entry) (repository chart : String) : Bool :=
  entry.repository.first == some repository.toList && entry.chart.first == some chart.toList

/-- `Entry::said_twice`. -/
def saidTwice (entry : Entry) : Option String :=
  ([("repoURL", entry.repository.count), ("chart", entry.chart.count),
    ("targetRevision", entry.target.count)].find? fun said => 1 < said.2).map Prod.fst

end Entry

/-! ## The walk -/

/-- `Role`: what a line is to the walk. -/
inductive Role where
  | elsewhere
  | opens
  | within
deriving DecidableEq

/-- `Position`. -/
inductive Position where
  | outside
  | spec (children : Option Nat)
  | sources (children : Nat) (entries : Option Nat)
deriving DecidableEq

/-- `opens`: whether a line is a key that opens a block to step into. -/
def opensKey (line : Line) (name : String) : Except Refusal Bool :=
  match Scalar.read line line.rest with
  | none => .ok false
  | some key =>
      if key.key ≠ name.toList then .ok false
      else if key.carriesAValue then
        .error ("writes '" ++ name ++ "' and its contents on one line, and only the indented " ++
          "form can be read without guessing at where each source ends")
      else .ok true

namespace Position

def observeOutside (line : Line) : Except Refusal (Position × Role) := do
  if line.indent = 0 then
    let opens ← opensKey line "spec"
    pure (if opens then .spec none else .outside, .elsewhere)
  else
    pure (.outside, .elsewhere)

def observeSpec (children : Option Nat) (line : Line) : Except Refusal (Position × Role) :=
  if line.indent = 0 then
    observeOutside line
  else do
    let keys := children.getD line.indent
    if line.indent = keys then
      let opens ← opensKey line "sources"
      pure (if opens then .sources keys none else .spec (some keys), .elsewhere)
    else
      pure (.spec (some keys), .elsewhere)

def observeSources (children : Nat) (entries : Option Nat) (line : Line) :
    Except Refusal (Position × Role) :=
  if line.indent < children || (line.indent = children && !line.opensEntry) then
    observeSpec (some children) line
  else if line.opensEntry then
    let column := entries.getD line.indent
    .ok (.sources children (some column), if line.indent = column then .opens else .within)
  else
    .ok (.sources children entries, .within)

/-- `Position::observe`. -/
def observe (position : Position) (line : Line) : Except Refusal (Position × Role) :=
  if line.startsADocument then
    .ok (.outside, .elsewhere)
  else
    match position with
    | .outside => observeOutside line
    | .spec children => observeSpec children line
    | .sources children entries => observeSources children entries line

end Position

/-- The walk: where it is, the entries so far, whether the last one is open, and the column of
the block scalar whose body is being passed over. -/
structure Walk where
  position : Position
  entries : List Entry
  isOpen : Bool
  block : Option Nat
deriving DecidableEq

namespace Walk

def start : Walk := { position := .outside, entries := [], isOpen := false, block := none }

/-- The last entry replaced. -/
def modifyLast (f : Entry → Entry) : List Entry → List Entry
  | [] => []
  | [entry] => [f entry]
  | entry :: rest => entry :: modifyLast f rest

/-- What a line is to the entries. -/
def enter (walk : Walk) (index : Nat) (line : Line) : Role → Walk
  | .opens => { walk with entries := walk.entries ++ [Entry.opened index line], isOpen := true }
  | .within =>
      if walk.isOpen then
        { walk with entries := modifyLast (fun entry => entry.observe index line) walk.entries }
      else walk
  | .elsewhere => { walk with isOpen := false }

/-- The column of the block scalar a line opens: its key's, not its dash's. -/
def opensBlock (line : Line) : Option Nat :=
  let (column, part) := line.afterDash.getD (line.indent, line.rest)
  if (Scalar.read line part).any Scalar.opensABlock then some column else none

/-- One line of the document. -/
def step (walk : Walk) (item : Nat × Line) : Except Refusal Walk :=
  let (index, line) := item
  if walk.block.any fun header => line.isBlank || header < line.indent then
    .ok walk
  else
    let walk := { walk with block := none }
    if !line.isSignificant then
      .ok walk
    else if line.isTabIndented then
      .error (s!"is indented with a tab on line {index + 1}, and a tab's width is nobody's to " ++
        "assume, so how deep that line sits cannot be said")
    else do
      let (position, role) ← walk.position.observe line
      let walk := { walk with position }.enter index line role
      pure { walk with block := opensBlock line }

end Walk

/-- Every line with its number. -/
def numbered {α : Type} : Nat → List α → List (Nat × α)
  | _, [] => []
  | index, item :: rest => (index, item) :: numbered (index + 1) rest

/-- `collect`: every direct entry of a top-level `spec.sources`. -/
def collectSources (lines : List Line) : Except Refusal (List Entry) :=
  ((numbered 0 lines).foldlM Walk.step Walk.start).map Walk.entries

/-- The one source that names a chart, and the line of its revision. -/
def revisionOf (sources : List Entry) (repository chart : String) :
    Except Refusal (Nat × Scalar) :=
  match sources.findSome? Entry.saidTwice with
  | some key =>
      .error ("has a source declaring '" ++ key ++ "' twice, and which one it means cannot be told")
  | none =>
      match sources.filter fun source => source.names repository chart with
      | [source] =>
          match source.target.first with
          | some revision => .ok revision
          | none => .error "names it in a source that declares no targetRevision of its own"
      | [] => .error "has no source naming it"
      | matched =>
          .error ("has " ++ toString matched.length ++ " sources naming it, and choosing " ++
            "between them is how the wrong chart gets deployed")

/-- The lines written back, one of them moved. -/
def writeBack (lines : List Line) (pinned : Nat) (moved : TextLine) : TextLine :=
  (numbered 0 lines).flatMap fun item =>
    (if item.1 = pinned then moved else item.2.content) ++ item.2.terminator

/-- `retarget`, less the words a refusal is given with. -/
def retargetText (text repository chart version : String) : Except Refusal String := do
  let lines := Line.split text
  let sources ← collectSources lines
  let (pinned, revision) ← revisionOf sources repository chart
  let rewritten ← revision.rewrite version
  pure (String.ofList (writeBack lines pinned rewritten.render))

end Argo

/-- `retarget`. -/
def retarget (text repository chart version : String) : Except PlatformGitError String :=
  (Argo.retargetText text repository chart version).mapError fun why =>
    .rejected ("the Argo Application pinning chart '" ++ chart ++ "' from " ++ repository ++ " " ++
      why)

example : retarget "spec:\n  sources:\n    - repoURL: r\n      chart: c\n      targetRevision: \"1\" # now\n"
      "r" "c" "2.0" =
    .ok "spec:\n  sources:\n    - repoURL: r\n      chart: c\n      targetRevision: \"2.0\" # now\n" := by
  decide +kernel

end PlatformGit
end SaasFabric
