import SaasFabric.PlatformGit.Components

/-!
# Moving one `images:` entry of a Kustomize overlay

`repin` edits an overlay as lines: the entry is found by its `- name:` line, the lines indented
under it are replaced by a tag and a digest, and every other line is written back.
-/

namespace SaasFabric
namespace PlatformGit

/-- A line, without what ended it. -/
abbrev TextLine := List Char

/-- What a line is indented by. -/
def indentOf (line : TextLine) : TextLine := line.takeWhile isWhitespace

/-- The line an entry of a repository opens with, without its indentation. -/
def marker (repository : String) : TextLine := "- name: ".toList ++ repository.toList

/-- What the keys of an entry opened by `line` are indented by: two further than its dash. -/
def continuation (line : TextLine) : TextLine := indentOf line ++ [' ', ' ']

/-- A line belongs to the entry `line` opens: indented as its keys are, and no entry itself. -/
def continues (line next : TextLine) : Bool :=
  (continuation line).isPrefixOf next && (next.drop (continuation line).length).head? != some '-'

/-- Whether a line opens the entry of a repository. -/
def opensEntryOf (repository : String) (line : TextLine) : Bool :=
  line.dropWhile isWhitespace == marker repository

/-- A key of the entry `line` opens. -/
def keyLine (line : TextLine) (key value : String) : TextLine :=
  continuation line ++ key.toList ++ [':', ' '] ++ value.toList

/-- The two keys an entry is rewritten to. -/
def pinLines (version digest : String) (line : TextLine) : List TextLine :=
  [keyLine line "newTag" version, keyLine line "digest" digest]

/-- The lines written back, and how many entries were rewritten.  `opened` is the line of the
entry whose own lines are being left out. -/
def repinLines (repository version digest : String) :
    Option TextLine → List TextLine → List TextLine × Nat
  | _, [] => ([], 0)
  | opened, line :: rest =>
      if opened.any fun opening => continues opening line then
        repinLines repository version digest opened rest
      else if opensEntryOf repository line then
        let (out, rewritten) := repinLines repository version digest (some line) rest
        (line :: pinLines version digest line ++ out, rewritten + 1)
      else
        let (out, rewritten) := repinLines repository version digest none rest
        (line :: out, rewritten)

/-- `repin`. -/
def repin (text repository version digest : String) : Except PlatformGitError String :=
  let (out, rewritten) := repinLines repository version digest none (Text.lines text)
  if rewritten ≠ 1 then
    .error (.rejected ("expected exactly one '" ++ repository ++ "' pin to rewrite, found " ++
      toString rewritten))
  else
    .ok (String.ofList (unlines out))

example : repin "images:\n  - name: a\n    newTag: 1\n  - name: b\n" "a" "2" "sha256:f" =
    .ok "images:\n  - name: a\n    newTag: 2\n    digest: sha256:f\n  - name: b\n" := by
  decide +kernel

end PlatformGit
end SaasFabric
