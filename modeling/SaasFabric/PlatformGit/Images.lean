import SaasFabric.PlatformGit.Argo
import SaasFabric.PlatformGit.Repinned

/-!
# The images of an overlay

What an overlay's `images:` says, read off its lines as the block they are: the entries of the
list, the keys each declares as its own, and the lines that are neither its tag nor its digest.
-/

namespace SaasFabric
namespace PlatformGit
namespace Images

open Argo (Line Scalar)

/-- A key of a mapping, and its value. -/
abbrev Field := TextLine × TextLine

/-- A scalar without its quotes. -/
def bare (text : TextLine) : TextLine :=
  ((Scalar.stripQuotes '"' text).or (Scalar.stripQuotes '\'' text)).getD text

/-- The key and the value that a line ends with. -/
def fieldOf (part : TextLine) : Option Field :=
  (Scalar.readFrom [] part).map fun scalar => (bare scalar.key, bare scalar.value)

/-- A line that starts a key, or anything else, of the document itself. -/
def isTop (line : Line) : Bool :=
  line.isSignificant && line.indent == 0 && !line.opensEntry

/-- `images:`, with its entries on the lines under it. -/
def isTitle (line : Line) : Bool :=
  isTop line && fieldOf line.rest == some ("images".toList, [])

/-! ## One entry -/

/-- The first key of an entry where it stands beside the dash, and its column. -/
def beside (dash : Line) : Option (Nat × TextLine) :=
  dash.afterDash.filter fun first => first.2.head? != some '#'

/-- The column of the keys of an entry. -/
def column (dash : Line) (rest : List Line) : Option Nat :=
  ((beside dash).map Prod.fst).or ((rest.find? Line.isSignificant).map Line.indent)

/-- A key of an entry on a line of its own. -/
def ownField (keys : Option Nat) (line : Line) : Option Field :=
  keys.bind fun keys =>
    if line.isSignificant && line.indent == keys && !line.opensEntry then fieldOf line.rest
    else none

/-- The keys of an entry. -/
def fields (dash : Line) (rest : List Line) : List Field :=
  ((beside dash).bind fun first => fieldOf first.2).toList ++
    rest.filterMap (ownField (column dash rest))

/-- Whether a key is one that is pinned. -/
def isPinned (field : Field) : Bool :=
  field.1 == "newTag".toList || field.1 == "digest".toList

/-- Whether a line is an entry's tag or digest. -/
def isPin (keys : Option Nat) (line : Line) : Bool := (ownField keys line).any isPinned

/-- What an entry gives a key. -/
def valuesOf (key : String) (fields : List Field) : List TextLine :=
  (fields.filter fun field => field.1 == key.toList).map Prod.snd

/-! ## Where an entry stands -/

/-- The lines of an overlay around one entry of its images. -/
structure Place where
  head : List Line
  title : Line
  front : List Line
  dash : Line
  rest : List Line
  back : List Line
  tail : List Line

namespace Place

/-- What comes before the entry. -/
def before (place : Place) : List Line := place.head ++ place.title :: place.front

/-- What comes after it. -/
def after (place : Place) : List Line := place.back ++ place.tail

/-- All the lines. -/
def lines (place : Place) : List Line :=
  place.before ++ place.dash :: (place.rest ++ place.after)

/-- The entry's keys. -/
def fields (place : Place) : List Field := Images.fields place.dash place.rest

/-- The column of its keys. -/
def column (place : Place) : Option Nat := Images.column place.dash place.rest

/-- The lines under its dash that are neither its tag nor its digest. -/
def kept (place : Place) : List Line := place.rest.filter fun line => !isPin place.column line

/-- Other lines under the dash. -/
def withRest (place : Place) (rest : List Line) : Place := { place with rest := rest }

/-- An entry of the images, and all of it. -/
structure IsEntry (place : Place) : Prop where
  title : isTitle place.title = true
  inside : ∀ line ∈ place.front ++ place.dash :: (place.rest ++ place.back), isTop line = false
  ends : ∀ line ∈ place.tail.head?, isTop line = true
  dash : place.dash.opensEntry = true
  front : ∀ line ∈ place.front, line.isSignificant = true → place.dash.indent ≤ line.indent
  first : ∀ line ∈ place.front.find? Line.isSignificant,
    line.opensEntry = true ∧ line.indent = place.dash.indent
  under : ∀ line ∈ place.rest, line.isSignificant = true → place.dash.indent < line.indent
  within : ∀ keys ∈ place.column, ∀ line ∈ place.rest, line.isSignificant = true →
    keys ≤ line.indent
  back : ∀ line ∈ place.back.head?, line.opensEntry = true ∧ line.indent = place.dash.indent

/-- The entry names a repository. -/
def Names (place : Place) (repository : String) : Prop :=
  ("name".toList, repository.toList) ∈ place.fields

/-- The one entry of an overlay's images that names a repository. -/
structure IsOnly (place : Place) (text repository : String) : Prop where
  lines : place.lines = Line.split text
  entry : place.IsEntry
  names : place.Names repository
  only : ∀ other : Place, other.lines = Line.split text → other.IsEntry →
    other.Names repository → other.before.length = place.before.length

end Place

/-- One image is moved to a version and a digest, and nothing else: one entry of the images names
the repository, the entry gives the new tag and the new digest and every other key as before, every
line that is not its tag or its digest stands as it stood, moving it again changes nothing, and
moving it back restores what declared just these keys. -/
def MovesOneImage (text repository version digest out : String) : Prop :=
  ∃ (place : Place) (rest : List Line), place.IsOnly text repository ∧
    (place.withRest rest).lines = Line.split out ∧ (place.withRest rest).IsEntry ∧
    (place.withRest rest).kept = place.kept ∧
    (place.withRest rest).fields.filter (!isPinned ·) = place.fields.filter (!isPinned ·) ∧
    valuesOf "newTag" (place.withRest rest).fields = [version.toList] ∧
    valuesOf "digest" (place.withRest rest).fields = [digest.toList] ∧
    repin out repository version digest = .ok out ∧
    ∀ tag pinned : String, place.fields = [("name".toList, repository.toList),
        ("newTag".toList, tag.toList), ("digest".toList, pinned.toList)] →
      repin out repository tag pinned = .ok text

/-! ## When one image is moved -/

/-- A line as it is written back. -/
def fedLine (content : TextLine) : Line := Line.read (content ++ ['\n'])

/-- A line that is written back as it was: ended by a line feed alone. -/
def IsFed (line : Line) : Prop := fedLine line.content = line

/-- A value that is read back from its line as it is written there. -/
def ReadsBack (key value : String) : Prop :=
  FitsLine value.toList ∧
    fieldOf (key.toList ++ [':', ' '] ++ value.toList) = some (key.toList, value.toList)

/-- An entry of the images is pinned the way it is written back: it is the only one to name its
repository and opens with the name; right under that come its tag and its digest and nothing else
of it, and no other line of it is one; every other line of the overlay ends with a line feed alone;
and where it has these three keys only, the two are written as they are written back. -/
structure Place.IsPinned (place : Place) (text repository : String) (own more : List Line) :
    Prop where
  only : place.IsOnly text repository
  split : place.rest = own ++ more
  opens : opensEntryOf repository place.dash.content = true
  before : ∀ line ∈ place.before, opensEntryOf repository line.content = false
  pins : ∀ line ∈ own, continues place.dash.content line.content = true ∧
    isPin place.column line = true
  stops : ∀ line ∈ (more ++ place.after).head?,
    continues place.dash.content line.content = false
  others : ∀ line ∈ more, isPin place.column line = false
  fed : ∀ line ∈ place.before ++ place.dash :: (more ++ place.after), IsFed line
  restores : ∀ tag pinned : String, place.fields = [("name".toList, repository.toList),
      ("newTag".toList, tag.toList), ("digest".toList, pinned.toList)] →
    own = (pinLines tag pinned place.dash.content).map fedLine

end Images
end PlatformGit
end SaasFabric
