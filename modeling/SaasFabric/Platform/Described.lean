import SaasFabric.Core.Text
import SaasFabric.Platform.Errors
import SaasFabric.Platform.Together
import SaasFabric.Platform.Version

/-!
# A described release

Steps 4 and 5 of the rule (`discovery/described/{standing,images,claimed,reason}.rs`): every image
other than the primary exists at its digest and is still tagged there, and the images and the
component descriptor name one commit.  Of the component descriptor only the images are read here.
-/

namespace SaasFabric
namespace Platform

/-! ## What a registry answers -/

/-- `Provenance`. -/
inductive Provenance where
  | agreed (revision : String)
  | absent
  | disagreed
deriving DecidableEq

/-- `Resolved`. -/
structure Resolved where
  digest : String
  provenance : Provenance
deriving DecidableEq

/-- `Answer`. -/
abbrev ReadAnswer := Except RegistryError (Option Resolved)

/-- `Registry::resolve`, the calls numbered in the order they are made. -/
structure Registry where
  resolve (call : ℕ) (repository reference : String) : Read ReadAnswer

/-! ## What a release is -/

/-- `ImageReference`. -/
structure ImageReference where
  repository : String
  digest : String
deriving DecidableEq

/-- `ComponentSpec`, its images by role. -/
structure ComponentSpec where
  images : BTreeMap String ImageReference

/-- `ComponentDescriptor`. -/
structure ComponentDescriptor where
  spec : ComponentSpec

/-- `AttachedDescriptor`, less the document it was read from. -/
structure AttachedDescriptor where
  digest : String
  revision : Option String

/-- `ResolvedImage`. -/
structure ResolvedImage where
  repository : String
  digest : String
deriving DecidableEq

/-- `ReleaseUnit`. -/
structure ReleaseUnit where
  version : Version
  sourceRevision : String
  images : BTreeMap String ResolvedImage

/-- `DescribedRelease`. -/
structure DescribedRelease where
  unit : ReleaseUnit
  primary : String
  descriptorDigest : String
  descriptor : ComponentDescriptor

/-- `RevisionOf`. -/
inductive RevisionOf where
  | image (role : String)
  | componentDescriptor
deriving DecidableEq

/-- `InvalidReason`, of which steps 4 and 5 give two. -/
inductive InvalidReason where
  | missingImage (role : String)
  | noSingleRevision (of : RevisionOf)
deriving DecidableEq

/-- `Evaluation`, as steps 4 and 5 give it. -/
inductive Evaluation where
  | complete (release : DescribedRelease)
  | incoherent
  | invalid (reason : InvalidReason)

/-- `Claimed`. -/
structure Claimed where
  version : Version
  primary : String
  primaryImage : Resolved
  descriptor : ComponentDescriptor
  attached : AttachedDescriptor

/-! ## Passes 1 and 2 -/

/-- `Standing`. -/
inductive Standing where
  | waiting
  | failed (index : ℕ)
  | passed
deriving DecidableEq

/-- `matches!(answer, Ok(Some(resolved)) if resolved.digest == *expected)`. -/
def resolvesTo (answer : ReadAnswer) (expected : String) : Bool :=
  match answer with
  | .ok (some resolved) => resolved.digest == expected
  | .ok none => false
  | .error _ => false

/-- The loop of `standing`, from an index on; a cycle over no digests has no next. -/
def standingFrom (digests : List String) : ℕ → List (Option ReadAnswer) → Standing
  | _, [] => .passed
  | index, answer :: answers =>
    match digests[index % digests.length]? with
    | none => .passed
    | some expected =>
      match answer with
      | none => .waiting
      | some answer =>
        if resolvesTo answer expected then standingFrom digests (index + 1) answers
        else .failed index

/-- `standing`. -/
def standing (digests : List String) (answers : List (Option ReadAnswer)) : Standing :=
  standingFrom digests 0 answers

/-- `settled`. -/
def settled (digests : List String) (answers : List (Option ReadAnswer)) : Bool :=
  standing digests answers != .waiting

/-- An image other than the primary, under its role. -/
abbrev Other := String × ImageReference

/-- `digests`. -/
def digestsOf (others : List Other) : List String := others.map fun other => other.2.digest

/-- The reads by digest, and then the reads by tag. -/
def readsOf (registry : Registry) (others : List Other) (version : String) :
    List (Read ReadAnswer) :=
  let byDigest := (others.zipIdx 0).map fun (other, call) =>
    registry.resolve call other.2.repository other.2.digest
  let byTag := (others.zipIdx others.length).map fun (other, call) =>
    registry.resolve call other.2.repository version
  byDigest ++ byTag

/-- What `found` returns once it returns. -/
abbrev Found := Except RegistryError (Except Evaluation (BTreeMap String Resolved))

/-- An image that resolved, under its role. -/
def resolvedImage : Other × Option ReadAnswer → Option (String × Resolved)
  | ((role, _), some (.ok (some resolved))) => some (role, resolved)
  | _ => none

/-- The end of `found`, over the answers that are in. -/
def concluded (others : List Other) (answers : List (Option ReadAnswer)) : Found :=
  match standing (digestsOf others) answers with
  | .failed index =>
    match answers[index]? with
    | some (some (.error error)) => .error error
    | _ =>
      match others[index]? with
      | some (role, _) => .ok (.error (.invalid (.missingImage role)))
      | none => .ok (.error .incoherent)
  | .passed => .ok (.ok (Library.collect ((others.zip answers).filterMap resolvedImage)))
  | .waiting => .error (.unavailable "an image read was abandoned before it answered")

/-- `found`, after this many polls. -/
def found (registry : Registry) (others : List Other) (version : String) (polls : ℕ) :
    Option Found :=
  (together (readsOf registry others version) (settled (digestsOf others)) polls).map
    (concluded others)

/-! ## Passes 3 and 4 -/

/-- `MAX_REVISION_BYTES`. -/
def maxRevisionBytes : ℕ := 256

/-- `check_revision(..).is_ok()`. -/
def isRevision (value : String) : Bool :=
  !((Text.trim value).isEmpty || decide (value.utf8ByteSize > maxRevisionBytes) ||
    value.toList.any isControl)

/-- `no_single_revision`. -/
def noSingleRevision (of : RevisionOf) : Evaluation := .invalid (.noSingleRevision of)

/-- `complete`. -/
def complete (claimed : Claimed) (found : BTreeMap String Resolved) (sourceRevision : String) :
    DescribedRelease :=
  let digests := (Library.collect (found.toList.map fun (role, resolved) =>
    (role, resolved.digest))).insert claimed.primary claimed.primaryImage.digest
  let images := claimed.descriptor.spec.images.toList.filterMap fun (role, image) =>
    digests[role]?.map fun digest => (role, (⟨image.repository, digest⟩ : ResolvedImage))
  { unit := ⟨claimed.version, sourceRevision, Library.collect images⟩
    primary := claimed.primary
    descriptorDigest := claimed.attached.digest
    descriptor := claimed.descriptor }

/-- Pass 3's loop: the revisions every image names. -/
def revisionsOf (revisions : BTreeSet String) :
    List (String × Resolved) → Except Evaluation (BTreeSet String)
  | [] => .ok revisions
  | (role, resolved) :: every =>
    match resolved.provenance with
    | .agreed revision =>
      if isRevision revision then revisionsOf (revisions.insert revision) every
      else .error (noSingleRevision (.image role))
    | .absent => .error (noSingleRevision (.image role))
    | .disagreed => .error (noSingleRevision (.image role))

/-- `check` from `found`'s images on. -/
def agree (claimed : Claimed) (found : BTreeMap String Resolved) : Evaluation :=
  match revisionsOf ∅ (found.toList ++ [(claimed.primary, claimed.primaryImage)]) with
  | .error decided => decided
  | .ok revisions =>
    match claimed.attached.revision.filter isRevision with
    | none => noSingleRevision .componentDescriptor
    | some own =>
      match (revisions.insert own).toList with
      | [sourceRevision] => .complete (complete claimed found sourceRevision)
      | _ => .incoherent

/-- The images other than the primary. -/
def Claimed.others (claimed : Claimed) : List Other :=
  claimed.descriptor.spec.images.toList.filter fun other => other.1 != claimed.primary

/-- `check` on what `found` returned. -/
def evaluated (claimed : Claimed) : Found → Except RegistryError Evaluation
  | .error error => .error error
  | .ok (.error decided) => .ok decided
  | .ok (.ok found) => .ok (agree claimed found)

/-- `check`, after this many polls. -/
def check (registry : Registry) (claimed : Claimed) (polls : ℕ) :
    Option (Except RegistryError Evaluation) :=
  (found registry claimed.others claimed.version.asStr polls).map (evaluated claimed)

end Platform
end SaasFabric
