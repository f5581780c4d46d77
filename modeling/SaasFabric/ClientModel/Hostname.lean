import SaasFabric.ClientModel.PublicHost
import SaasFabric.ClientModel.RedirectStrategy

/-!
# Hostname templates

`catalogue/validation/hostname.rs`: what publishing asks of an application's hostname template,
beside the callback an assignment builds from it.  Publishing tries one name, of the length that
leaves least room; an assignment puts a client's own name there, and what it says matters as
much as how long it is.
-/

namespace SaasFabric
namespace ClientModel

open Library (bind_eq_ok)

/-! ## Publishing -/

/-- `invalid`. -/
def invalid (detail : String) : DesiredStateError := .invalidField "catalogue" detail

/-- `LONGEST_LABEL`. -/
def LONGEST_LABEL : Nat := 63

/-- `self.domain.matches(PLACEHOLDER).count()`. -/
def occurrences (domain : String) : Nat := Text.matchCount PLACEHOLDER 0 domain.toList

/-- `affix_len`: what the placeholder's own label holds beside it. -/
def affixLen (domain : String) : Nat :=
  match (domain.toList.splitOn '.').find? (Text.containsSlice PLACEHOLDER) with
  | some label => (String.ofList label).utf8ByteSize - PLACEHOLDER.length
  | none => 0

/-- `worst_case_client_len`. -/
def worstCaseClientLen (domain : String) : Nat := max (LONGEST_LABEL - affixLen domain) 1

/-- The host publishing tries. -/
def worstCaseHost (domain : String) : String :=
  substituted domain (String.ofList (List.replicate (worstCaseClientLen domain) 'a'))

/-- The callback on a host of a template. -/
def callbackOn (host : String) : String := "https://" ++ host ++ "/callback"

/-- `validate_domain`. -/
def validateDomain (domain : String) (publishing : Bool) : Except DesiredStateError Unit :=
  if domain.isEmpty then .ok ()
  else if occurrences domain > 1 then
    .error (invalid "Application hostname template may contain at most one \x7bclient\x7d")
  else if !(hostCheck (substituted domain "example")).isOk then
    .error (invalid "Invalid application hostname template")
  else if !publishing then .ok ()
  else if occurrences domain ≠ 1 then
    .error (invalid ("Publishing requires the hostname template to contain exactly one " ++
      "\x7bclient\x7d"))
  else do
    let callback ← (RedirectUri.tryNew (callbackOn (worstCaseHost domain))).mapError fun error =>
      invalid ("Hostname template produces an invalid callback: " ++ toString error)
    let _ ← (RedirectStrategy.tryNew .claimedHttps [callback]).mapError fun error =>
      invalid ("Hostname template's callback is not admitted: " ++ toString error)
    .ok ()

/-! ## A callback on a host -/

section Callbacks

variable {host : List Char}

/-- Only what a host is written with, and dots. -/
def HostText (host : List Char) : Prop := ∀ c ∈ host, c = '.' ∨ isHostCharacter c = true

theorem HostText.not_mem (h : HostText host) {c : Char} (hdot : c ≠ '.')
    (hcharacter : isHostCharacter c = false) : c ∉ host := by
  intro hc
  obtain heq | hhost := h c hc
  · exact hdot heq
  · rw [hcharacter] at hhost
    exact Bool.false_ne_true hhost

theorem HostText.toNat_lt (h : HostText host) {c : Char} (hc : c ∈ host) : c.toNat < 128 := by
  obtain rfl | hcharacter := h c hc
  · decide
  · exact toNat_lt_of_isHostCharacter hcharacter

theorem toLower_of_isHostCharacter {c : Char} (h : isHostCharacter c = true) : c.toLower = c := by
  simp only [isHostCharacter, Bool.or_eq_true, beq_iff_eq] at h
  obtain (hlower | hdigit) | rfl := h
  · exact toLower_of_isUpper_eq_false (isUpper_of_isLower hlower)
  · exact toLower_of_isUpper_eq_false (isUpper_of_isDigit hdigit)
  · rfl

theorem HostText.map_toLower (h : HostText host) : host.map Char.toLower = host := by
  conv => rhs; rw [← List.map_id host]
  refine List.map_congr_left fun c hc => ?_
  obtain rfl | hcharacter := h c hc
  · decide
  · exact toLower_of_isHostCharacter hcharacter

theorem HostText.hostAndPort_eq (h : HostText host) : hostAndPort host = (host, none) := by
  have hbracket : stripPrefix '[' host = none := by
    cases host with
    | nil => rfl
    | cons c rest =>
      refine if_neg fun heq => ?_
      exact h.not_mem (c := '[') (by decide) (by decide) (heq ▸ List.mem_cons_self)
  have hcolon : splitOnceAt ':' host = none := by
    unfold splitOnceAt
    have hnil : host.dropWhile (· != ':') = [] :=
      List.dropWhile_eq_nil_iff.mpr fun c hc => bne_iff_ne.mpr fun heq =>
        h.not_mem (by decide) (by decide) (heq ▸ hc)
    rw [hnil]
  unfold hostAndPort
  rw [hbracket]
  dsimp only
  rw [hcolon]

theorem HostText.authorityOf_eq (h : HostText host) :
    authorityOf (host ++ "/callback".toList) = host := by
  unfold authorityOf
  rw [List.takeWhile_append_of_pos]
  · exact List.append_nil host
  · intro c hc
    have hne : ∀ other, other ≠ '.' → isHostCharacter other = false → (c != other) = true :=
      fun other hdot hother => bne_iff_ne.mpr fun heq => h.not_mem hdot hother (heq ▸ hc)
    rw [hne '/' (by decide) (by decide), hne '?' (by decide) (by decide),
      hne '#' (by decide) (by decide)]
    rfl

theorem HostText.checkCharacters_eq (h : HostText host) {rest : List Char}
    (hrest : checkCharacters rest = .ok ()) :
    checkCharacters (host ++ rest) = .ok () := by
  induction host with
  | nil => exact hrest
  | cons c host ih =>
    have hplain : isWhitespace c = false ∧ isControl c = false ∧ (c == '*') = false := by
      have hlt := h.toNat_lt List.mem_cons_self
      have hall : ∀ n < 128, (Char.ofNat n = '.' ∨ isHostCharacter (Char.ofNat n) = true) →
          isWhitespace (Char.ofNat n) = false ∧ isControl (Char.ofNat n) = false ∧
            (Char.ofNat n == '*') = false := by decide
      have hc := hall c.toNat hlt
      rw [Char.ofNat_toNat] at hc
      exact hc (h c List.mem_cons_self)
    rw [List.cons_append, checkCharacters, hplain.1, hplain.2.1, hplain.2.2]
    exact ih fun c hc => h c (List.mem_cons_of_mem _ hc)

theorem toList_callbackOn (host : List Char) : (callbackOn (String.ofList host)).toList =
    "https://".toList ++ (host ++ "/callback".toList) := by
  simp only [callbackOn, String.toList_append, String.toList_ofList, List.append_assoc]

theorem HostText.utf8ByteSize_callbackOn (h : HostText host) :
    (callbackOn (String.ofList host)).utf8ByteSize = host.length + 17 := by
  rw [Text.utf8ByteSize_of_ascii, toList_callbackOn]
  · simp only [List.length_append]
    have h8 : "https://".toList.length = 8 := by decide
    have h9 : "/callback".toList.length = 9 := by decide
    omega
  · intro c hc
    rw [toList_callbackOn, List.mem_append, List.mem_append] at hc
    obtain hscheme | hhost | hpath := hc
    · exact (show ∀ c ∈ "https://".toList, c.toNat < 128 by decide +kernel) c hscheme
    · exact h.toNat_lt hhost
    · exact (show ∀ c ∈ "/callback".toList, c.toNat < 128 by decide +kernel) c hpath

/-- A callback on a host is of the kind the host is. -/
theorem redirectUriKind_callbackOn (h : HostText host) (hlength : host.length ≤ 495) :
    redirectUriKind (callbackOn (String.ofList host)) = hostClassify host true := by
  have hne : (callbackOn (String.ofList host)).isEmpty = false := by
    rw [Bool.eq_false_iff, ne_eq, String.isEmpty_iff, ← String.toList_eq_nil_iff,
      toList_callbackOn]
    exact List.cons_ne_nil _ _
  have hsize := h.utf8ByteSize_callbackOn
  have hclassify : classify (callbackOn (String.ofList host)).toList = hostClassify host true := by
    have hsplit : splitOnceAt ':' ("https://".toList ++ (host ++ "/callback".toList)) =
        some ("https".toList, "//".toList ++ (host ++ "/callback".toList)) := rfl
    have huserinfo : rejectUserinfo host = .ok () := by
      refine if_neg ?_
      rw [List.contains_iff_mem]
      exact h.not_mem (by decide) (by decide)
    have hbrackets : rejectBrackets host = .ok () := by
      unfold rejectBrackets
      cases host with
      | nil => rfl
      | cons c rest =>
        rw [stripPrefix, if_neg]
        exact fun heq => h.not_mem (c := '[') (by decide) (by decide) (heq ▸ List.mem_cons_self)
    rw [toList_callbackOn, classify, hsplit]
    show classifyAuthority ("//".toList ++ (host ++ "/callback".toList)) true = _
    show (do
      rejectUserinfo (authorityOf (host ++ "/callback".toList))
      rejectBrackets (authorityOf (host ++ "/callback".toList))
      hostClassify ((hostOf (authorityOf (host ++ "/callback".toList))).map Char.toLower) true) = _
    rw [h.authorityOf_eq, huserinfo, hbrackets, hostOf, h.hostAndPort_eq, h.map_toLower]
    rfl
  have hcharacters : charactersCheck (callbackOn (String.ofList host)).toList = .ok () := by
    have hafter : afterScheme ("https://".toList ++ (host ++ "/callback".toList)) =
        some (host ++ "/callback".toList) := rfl
    unfold charactersCheck hasWildcardInPortPosition
    rw [toList_callbackOn, hafter]
    show (if (hostAndPort (authorityOf (host ++ "/callback".toList))).2 == some ['*'] then _
      else _) = _
    rw [h.authorityOf_eq, h.hostAndPort_eq]
    show checkCharacters ('h' :: 't' :: 't' :: 'p' :: 's' :: ':' :: '/' :: '/' ::
      (host ++ "/callback".toList)) = _
    exact h.checkCharacters_eq (by decide)
  unfold redirectUriKind
  rw [hne, hsize, if_neg (by decide), if_neg (by omega), hclassify, hcharacters]
  cases hostClassify host true <;> rfl

/-- A callback on a host is a claimed one exactly when the host is public. -/
theorem exists_claimed_iff (h : HostText host) :
    (∃ uri, RedirectUri.tryNew (callbackOn (String.ofList host)) = .ok uri ∧
      uri.value = callbackOn (String.ofList host) ∧
      RedirectStrategy.tryNew .claimedHttps [uri] = .ok ⟨.claimedHttps, [uri]⟩) ↔
      PublicHost host := by
  have hlast : (callbackOn (String.ofList host)).toList.getLast? = some 'k' := by
    rw [toList_callbackOn, ← List.append_assoc,
      List.getLast?_append_of_ne_nil _ (by decide : "/callback".toList ≠ [])]
    rfl
  constructor
  · rintro ⟨uri, hparsed, -, hstrategy⟩
    obtain ⟨-, -, hcomplaints⟩ := RedirectStrategy.tryNew_eq_ok.mp hstrategy
    have hcomplaint := hcomplaints uri List.mem_cons_self
    unfold complaintAbout at hcomplaint
    split at hcomplaint
    · exact absurd hcomplaint nofun
    next hadmits =>
    have hhttps : uri.kind = .https := by
      unfold admits at hadmits
      cases hcase : uri.kind <;> rw [hcase] at hadmits <;>
        first | rfl | exact absurd rfl hadmits
    have haccepted := uri.accepted
    have hvalue : uri.value = callbackOn (String.ofList host) := by
      unfold RedirectUri.tryNew at hparsed
      split at hparsed
      · rw [← Except.ok.inj hparsed]
      · exact absurd hparsed nofun
    rw [hvalue, hhttps] at haccepted
    have hlength : host.length ≤ 495 := by
      have hsize := h.utf8ByteSize_callbackOn
      unfold redirectUriKind at haccepted
      split at haccepted
      · exact absurd haccepted nofun
      split at haccepted
      · exact absurd haccepted nofun
      omega
    rw [redirectUriKind_callbackOn h hlength] at haccepted
    exact (hostClassify_eq_https.mp haccepted).2
  · intro hpublic
    have hhttps := (redirectUriKind_callbackOn h (by have := hpublic.length_le; omega)).trans
      (hostClassify_eq_https.mpr ⟨rfl, hpublic⟩)
    refine ⟨_, RedirectUri.tryNew_of_kind hhttps, rfl,
      RedirectStrategy.tryNew_eq_ok.mpr ⟨rfl, List.cons_ne_nil _ _, fun uri hmem => ?_⟩⟩
    rw [List.mem_singleton] at hmem
    subst hmem
    have hwildcard : RedirectUri.hasPathWildcard
        ⟨callbackOn (String.ofList host), .https, hhttps⟩ = false := by
      unfold RedirectUri.hasPathWildcard
      rw [hlast]
      rfl
    unfold complaintAbout
    rw [hwildcard]
    rfl

end Callbacks

/-! ## The names a template makes -/

section Templates

/-- What `parse_dns_label` takes is a host label between letters or digits. -/
theorem hostLabel_of_parseDnsLabel {kind value result : String}
    (h : parseDnsLabel kind value = .ok result) :
    HostLabel value.toList ∧ value.toList.head?.any isAsciiAlphanumeric = true ∧
      value.toList.getLast?.any isAsciiAlphanumeric = true := by
  unfold parseDnsLabel at h
  obtain ⟨⟨⟩, hlength, hrest⟩ := bind_eq_ok.mp h
  split at hrest
  · exact absurd hrest nofun
  next hfind =>
  obtain ⟨⟨⟩, hboundaries, -⟩ := bind_eq_ok.mp hrest
  have hcharacters : ∀ c ∈ value.toList, isHostCharacter c = true := by
    intro c hc
    have hnot := List.find?_eq_none.mp hfind c hc
    rwa [Bool.not_eq_true', Bool.not_eq_false] at hnot
  unfold checkLength at hlength
  split at hlength
  · exact absurd hlength nofun
  next hempty =>
  split at hlength
  · exact absurd hlength nofun
  next hsize =>
  unfold checkBoundaries at hboundaries
  dsimp only at hboundaries
  split at hboundaries
  · next hends =>
    rw [Bool.and_eq_true] at hends
    have hhyphen : isAsciiAlphanumeric '-' = false := by decide
    have hne : ∀ first : Option Char, first.any isAsciiAlphanumeric = true →
        first ≠ some '-' := by
      rintro _ hany rfl
      rw [Option.any_some, hhyphen] at hany
      exact Bool.false_ne_true hany
    rw [Text.utf8ByteSize_of_ascii fun c hc =>
      toNat_lt_of_isHostCharacter (hcharacters c hc)] at hsize
    refine ⟨⟨?_, by unfold MAX_LENGTH at hsize; omega, hcharacters, hne _ hends.1, hne _ hends.2⟩,
      hends.1, hends.2⟩
    rwa [String.isEmpty_iff, ← String.toList_eq_nil_iff] at hempty
  · exact absurd hboundaries nofun

/-- The labels of two texts side by side: the last of the one and the first of the other are
one label. -/
theorem splitOn_append {before after : List Char} (names : List (List Char)) (left : List Char)
    {right : List Char} {others : List (List Char)}
    (hbefore : before.splitOn '.' = names ++ [left]) (hafter : after.splitOn '.' = right :: others) :
    (before ++ after).splitOn '.' = names ++ (left ++ right) :: others := by
  induction before generalizing names left with
  | nil =>
    rw [List.splitOn_nil] at hbefore
    cases names with
    | nil => rw [← (List.cons.inj hbefore).1, List.nil_append, hafter]; rfl
    | cons name names => exact absurd (List.cons.inj hbefore).2 (by simp)
  | cons c before ih =>
    rw [List.splitOn_cons_eq_if_modifyHead] at hbefore
    rw [List.cons_append, List.splitOn_cons_eq_if_modifyHead]
    split at hbefore
    · next hdot =>
      rw [if_pos hdot]
      cases names with
      | nil =>
        exact absurd (List.cons.inj hbefore).2 (List.splitOn_ne_nil _ _)
      | cons name names =>
        obtain ⟨hname, hrest⟩ := List.cons.inj hbefore
        rw [ih names left hrest, ← hname]
        rfl
    · next hdot =>
      rw [if_neg hdot]
      obtain ⟨name, rest, hrest⟩ := List.exists_cons_of_ne_nil (List.splitOn_ne_nil '.' before)
      rw [hrest, List.modifyHead_cons] at hbefore
      cases names with
      | nil =>
        obtain ⟨hname, hnil⟩ := List.cons.inj hbefore
        rw [ih [] name (by rw [hrest, hnil]; rfl), ← hname]
        rfl
      | cons first names =>
        obtain ⟨hname, htail⟩ := List.cons.inj hbefore
        rw [ih (name :: names) left (by rw [hrest, htail]; rfl), ← hname]
        rfl

theorem infix_of_mem_splitOn {text label : List Char} (h : label ∈ text.splitOn '.') :
    label <:+: text := by
  have hmem : ∀ labels : List (List Char), label ∈ labels →
      label ∈ labels.intersperse ['.'] := by
    intro labels
    induction labels with
    | nil => exact id
    | cons first rest ih =>
      cases rest with
      | nil => exact id
      | cons second rest =>
        intro hlabel
        rw [List.intersperse_cons_cons]
        obtain rfl | hrest := List.mem_cons.mp hlabel
        · exact List.mem_cons_self
        · exact List.mem_cons_of_mem _ (List.mem_cons_of_mem _ (ih hrest))
  have hjoin : ['.'].intercalate (text.splitOn '.') = text := List.intercalate_splitOn '.'
  rw [← hjoin]
  exact List.infix_of_mem_flatten (hmem _ h)

/-- A text with one placeholder, cut at it. -/
structure Template (domain : String) where
  before : List (List Char)
  left : List Char
  right : List Char
  after : List (List Char)
  around : Nat
  labels : ∀ name : String, '.' ∉ name.toList →
    (substituted domain name).toList.splitOn '.' =
      before ++ (left ++ name.toList ++ right) :: after
  length : ∀ name : String,
    (substituted domain name).toList.length = around + name.toList.length
  affix : affixLen domain =
    (String.ofList (left ++ PLACEHOLDER ++ right)).utf8ByteSize - PLACEHOLDER.length

theorem exists_template {domain : String} (h : occurrences domain = 1) :
    Nonempty (Template domain) := by
  obtain ⟨before, after, htext, hleast, hreplace⟩ := Text.exists_of_matchCount_one (by decide) h
  have hlast := List.dropLast_concat_getLast (List.splitOn_ne_nil '.' before)
  generalize hnames : (before.splitOn '.').dropLast = names at hlast
  generalize (before.splitOn '.').getLast _ = left at hlast
  obtain ⟨right, others, hafter⟩ := List.exists_cons_of_ne_nil (List.splitOn_ne_nil '.' after)
  have hinsert : ∀ name : List Char, '.' ∉ name →
      (before ++ name ++ after).splitOn '.' = names ++ (left ++ name ++ right) :: others := by
    intro name hname
    have hright := splitOn_append [] name (splitOn_of_not_mem hname) hafter
    rw [List.append_assoc, List.append_assoc, splitOn_append names left hlast.symm hright]
  have hfind : (domain.toList.splitOn '.').find? (Text.containsSlice PLACEHOLDER) =
      some (left ++ PLACEHOLDER ++ right) := by
    rw [htext, hinsert PLACEHOLDER (by decide), List.find?_append, List.find?_eq_none.mpr,
      Option.none_or, List.find?_cons_of_pos]
    · exact Text.containsSlice_iff.mpr ⟨left, right, rfl⟩
    · intro label hlabel hcontains
      -- A placeholder before the first one.
      have hmem : label ∈ before.splitOn '.' := by
        rw [← hlast]
        exact List.mem_append_left _ hlabel
      obtain ⟨earlier, later, hearlier⟩ :=
        (Text.containsSlice_iff.mp hcontains).trans (infix_of_mem_splitOn hmem)
      have hle := hleast earlier (later ++ PLACEHOLDER ++ after) (by
        rw [htext, ← hearlier]
        simp)
      have hlength := congrArg List.length hearlier
      simp only [List.length_append] at hlength
      have hplaceholder : PLACEHOLDER.length = 8 := by decide
      omega
  refine ⟨⟨names, left, right, others, before.length + after.length, fun name hname => ?_,
    fun name => ?_, by rw [affixLen, hfind]⟩⟩
  · rw [substituted, String.toList_ofList, hreplace, hinsert _ hname]
  · rw [substituted, String.toList_ofList, hreplace, List.length_append, List.length_append]
    omega

/-- Each label a host check passed is one. -/
theorem labels_of_hostCheck {value : String} (h : hostCheck value = .ok ()) :
    ∀ label ∈ value.toList.splitOn '.', HostLabel label ∧
      label.head?.any isAsciiAlphanumeric = true ∧
      label.getLast?.any isAsciiAlphanumeric = true := by
  unfold hostCheck at h
  split at h
  · exact absurd h nofun
  split at h
  · exact absurd h nofun
  intro label hlabel
  have hcheck := Library.forM_eq_ok.mp h (String.ofList label) (List.mem_map_of_mem hlabel)
  obtain ⟨result, hparsed, -⟩ := bind_eq_ok.mp hcheck
  have hdns := hostLabel_of_parseDnsLabel hparsed
  rwa [String.toList_ofList] at hdns

/-- A label with another name in it, as long as there is room, is a label. -/
theorem HostLabel.insert {left old new right : List Char} (hlabel : HostLabel (left ++ old ++ right))
    (hnew : HostLabel new) (hroom : (left ++ new ++ right).length ≤ 63) :
    HostLabel (left ++ new ++ right) := by
  have hold : ∀ c ∈ left ++ new ++ right, isHostCharacter c = true := by
    intro c hc
    obtain hleftNew | hright := List.mem_append.mp hc
    · obtain hleft | hmem := List.mem_append.mp hleftNew
      · exact hlabel.characters c (List.mem_append_left _ (List.mem_append_left _ hleft))
      · exact hnew.characters c hmem
    · exact hlabel.characters c (List.mem_append_right _ hright)
  refine ⟨by simp [hnew.ne_nil], hroom, hold, ?_, ?_⟩
  · have hhead := hlabel.head_ne
    cases left with
    | nil =>
      rw [List.nil_append, List.head?_append_of_ne_nil _ hnew.ne_nil]
      exact hnew.head_ne
    | cons c left => exact hhead
  · have hlast := hlabel.getLast_ne
    obtain rfl | hne := eq_or_ne right []
    · rw [List.append_nil, List.getLast?_append_of_ne_nil _ hnew.ne_nil]
      exact hnew.getLast_ne
    · rw [List.getLast?_append_of_ne_nil _ hne] at hlast ⊢
      exact hlast

/-- What publishing has made sure of. -/
theorem of_validateDomain {domain : String} (hdomain : domain ≠ "")
    (h : validateDomain domain true = .ok ()) :
    occurrences domain = 1 ∧ hostCheck (substituted domain "example") = .ok () ∧
      ∃ uri, RedirectUri.tryNew (callbackOn (worstCaseHost domain)) = .ok uri ∧
        (RedirectStrategy.tryNew .claimedHttps [uri]).isOk = true := by
  unfold validateDomain at h
  rw [if_neg (by rwa [String.isEmpty_iff])] at h
  split at h
  · exact absurd h nofun
  split at h
  · exact absurd h nofun
  next hcheck =>
  rw [if_neg (by decide)] at h
  split at h
  · exact absurd h nofun
  next hone =>
  obtain ⟨uri, huri, hrest⟩ := bind_eq_ok.mp h
  obtain ⟨strategy, hstrategy, -⟩ := bind_eq_ok.mp hrest
  refine ⟨Decidable.not_not.mp hone, ?_, uri, Library.mapError_eq_ok.mp huri, ?_⟩
  · rw [Bool.not_eq_true', Bool.not_eq_false] at hcheck
    cases hhost : hostCheck (substituted domain "example") with
    | ok => rfl
    | error error =>
      rw [hhost] at hcheck
      exact absurd hcheck Bool.false_ne_true
  · rw [Library.mapError_eq_ok.mp hstrategy]
    rfl

/-- Without hosts and a scheme, a client's callback is the template's. -/
theorem redirect_nil (client : ClientId) (application : String) {domain : String}
    (hdomain : domain ≠ "") :
    redirect client [] none application domain =
      callback (callbackOn (substituted domain client.value)) >>= fun uri =>
        RedirectStrategy.tryNew .claimedHttps [uri] := by
  have htemplate : templateCallback .claimedHttps client domain =
      (callback (callbackOn (substituted domain client.value))).map ([·]) := by
    unfold templateCallback
    rw [if_pos]
    · rfl
    · rw [Bool.and_eq_true, Bool.not_eq_true', Bool.eq_false_iff, ne_eq, String.isEmpty_iff]
      exact ⟨rfl, hdomain⟩
  show (templateCallback .claimedHttps client domain >>= fun template => _) = _
  rw [htemplate]
  cases callback (callbackOn (substituted domain client.value)) <;> rfl

theorem RedirectUri.value_of_tryNew {value : String} {uri : RedirectUri}
    (h : RedirectUri.tryNew value = .ok uri) : uri.value = value := by
  unfold RedirectUri.tryNew at h
  split at h
  · rw [← Except.ok.inj h]
  · exact absurd h nofun

namespace Template

variable {domain : String} (template : Template domain)

/-- The template makes a host of a name that is one. -/
def Checked : Prop :=
  ∀ label ∈ template.before ++ (template.left ++ "example".toList ++ template.right) ::
    template.after, HostLabel label

variable {template}

/-- What the template makes of a host's characters is a host's text. -/
theorem Checked.hostText (h : template.Checked) {name : String}
    (hname : ∀ c ∈ name.toList, isHostCharacter c = true) :
    HostText (substituted domain name).toList := by
  have hdot : '.' ∉ name.toList := fun hmem => absurd (hname _ hmem) (by decide)
  have hmiddle := h _ (List.mem_append_right _ List.mem_cons_self)
  intro c hc
  obtain heq | ⟨label, hlabel, hmem⟩ := mem_label_or_dot hc
  · exact .inl heq
  rw [template.labels name hdot] at hlabel
  refine .inr ?_
  obtain hbefore | hrest := List.mem_append.mp hlabel
  · exact (h label (List.mem_append_left _ hbefore)).characters c hmem
  obtain rfl | hafter := List.mem_cons.mp hrest
  · obtain hleftName | hright := List.mem_append.mp hmem
    · obtain hleft | hnew := List.mem_append.mp hleftName
      · exact hmiddle.characters c (List.mem_append_left _ (List.mem_append_left _ hleft))
      · exact hname c hnew
    · exact hmiddle.characters c (List.mem_append_right _ hright)
  · exact (h label (List.mem_append_right _ (List.mem_cons_of_mem _ hafter))).characters c hmem

theorem Checked.affixLen_eq (h : template.Checked) :
    affixLen domain = template.left.length + template.right.length := by
  have hmiddle := h _ (List.mem_append_right _ List.mem_cons_self)
  have hplaceholder : PLACEHOLDER.length = 8 := by decide
  rw [template.affix, Text.utf8ByteSize_of_ascii, String.toList_ofList, List.length_append,
    List.length_append]
  · omega
  · intro c hc
    rw [String.toList_ofList] at hc
    obtain hleft | hright := List.mem_append.mp hc
    · obtain hleft | hname := List.mem_append.mp hleft
      · exact toNat_lt_of_isHostCharacter
          (hmiddle.characters c (List.mem_append_left _ (List.mem_append_left _ hleft)))
      · exact (show ∀ c ∈ PLACEHOLDER, c.toNat < 128 by decide +kernel) c hname
    · exact toNat_lt_of_isHostCharacter (hmiddle.characters c (List.mem_append_right _ hright))

/-- Room for the longest name is room for every name that fits. -/
theorem Checked.publicHost (h : template.Checked) {longest name : String}
    (hlongest : PublicHost (substituted domain longest).toList) (hdot : '.' ∉ longest.toList)
    (hname : HostLabel name.toList) (hle : name.toList.length ≤ longest.toList.length)
    (hroom : (template.left ++ name.toList ++ template.right).length ≤ 63)
    (hunreserved : Unreserved (substituted domain name).toList) :
    PublicHost (substituted domain name).toList := by
  have hdotName : '.' ∉ name.toList :=
    fun hmem => absurd (hname.characters _ hmem) (by decide)
  have htwo := hlongest.two_le
  have hlength := hlongest.length_le
  rw [template.labels _ hdot, List.length_append, List.length_cons] at htwo
  rw [template.length] at hlength
  refine ⟨?_, ?_, ?_, hunreserved⟩
  · rw [template.labels _ hdotName]
    intro label hlabel
    obtain hbefore | hrest := List.mem_append.mp hlabel
    · exact h label (List.mem_append_left _ hbefore)
    obtain rfl | hafter := List.mem_cons.mp hrest
    · exact (h _ (List.mem_append_right _ List.mem_cons_self)).insert hname hroom
    · exact h label (List.mem_append_right _ (List.mem_cons_of_mem _ hafter))
  · rw [template.labels _ hdotName, List.length_append, List.length_cons]
    exact htwo
  · rw [template.length]
    omega

end Template

/-- A client the template has room for is served by it exactly when the name they make together
is not one reserved at either end. -/
theorem template_serves_iff {domain : String} {client : ClientId} (application : String)
    (hdomain : domain ≠ "") (hvalid : validateDomain domain true = .ok ())
    (hroom : client.value.utf8ByteSize + affixLen domain ≤ LONGEST_LABEL) :
    (∃ strategy, redirect client [] none application domain = .ok strategy ∧
      strategy.kind = .claimedHttps ∧
      strategy.uris.map (·.value) = [callbackOn (substituted domain client.value)]) ↔
      Unreserved (substituted domain client.value).toList := by
  obtain ⟨hone, hexample, worst, hworst, hadmitted⟩ := of_validateDomain hdomain hvalid
  obtain ⟨template⟩ := exists_template hone
  have hchecked : template.Checked := by
    intro label hlabel
    rw [← template.labels "example" (by decide)] at hlabel
    exact (labels_of_hostCheck hexample label hlabel).1
  obtain ⟨result, hclient⟩ : ∃ result, parseDnsLabel "client id" client.value = .ok result := by
    have haccepted := client.accepted
    cases hparsed : parseDnsLabel "client id" client.value with
    | ok result => exact ⟨result, rfl⟩
    | error error =>
      rw [hparsed] at haccepted
      exact absurd haccepted Bool.false_ne_true
  have hname := (hostLabel_of_parseDnsLabel hclient).1
  -- What publishing tried is a public host.
  have hlongest : PublicHost (worstCaseHost domain).toList := by
    have ha : ∀ c ∈ (String.ofList (List.replicate (worstCaseClientLen domain) 'a')).toList,
        isHostCharacter c = true := by
      intro c hc
      rw [String.toList_ofList] at hc
      rw [List.eq_of_mem_replicate hc]
      decide
    refine (exists_claimed_iff (hchecked.hostText ha)).mp ⟨worst, ?_, ?_, ?_⟩
    · rw [String.ofList_toList]
      exact hworst
    · rw [String.ofList_toList]
      exact RedirectUri.value_of_tryNew hworst
    · cases hstrategy : RedirectStrategy.tryNew .claimedHttps [worst] with
      | ok strategy => rw [(RedirectStrategy.tryNew_eq_ok.mp hstrategy).1]
      | error error =>
        rw [hstrategy] at hadmitted
        exact absurd hadmitted Bool.false_ne_true
  rw [Text.utf8ByteSize_of_ascii fun c hc => toNat_lt_of_isHostCharacter (hname.characters c hc),
    hchecked.affixLen_eq] at hroom
  have hclaimed := exists_claimed_iff (hchecked.hostText hname.characters)
  rw [String.ofList_toList] at hclaimed
  rw [redirect_nil client application hdomain]
  constructor
  · rintro ⟨strategy, hredirect, hkind, -⟩
    obtain ⟨uri, hcallback, hstrategy⟩ := bind_eq_ok.mp hredirect
    have hparsed := Library.mapError_eq_ok.mp hcallback
    rw [(RedirectStrategy.tryNew_eq_ok.mp hstrategy).1] at hstrategy
    exact (hclaimed.mp ⟨uri, hparsed, RedirectUri.value_of_tryNew hparsed, hstrategy⟩).unreserved
  · intro hunreserved
    have hdot : '.' ∉ (String.ofList
        (List.replicate (worstCaseClientLen domain) 'a')).toList := by
      rw [String.toList_ofList]
      exact fun hmem => absurd (List.eq_of_mem_replicate hmem) (by decide)
    have hle : client.value.toList.length ≤ (String.ofList
        (List.replicate (worstCaseClientLen domain) 'a')).toList.length := by
      rw [String.toList_ofList, List.length_replicate, worstCaseClientLen, hchecked.affixLen_eq]
      omega
    have hfits : (template.left ++ client.value.toList ++ template.right).length ≤ 63 := by
      rw [List.length_append, List.length_append]
      unfold LONGEST_LABEL at hroom
      omega
    obtain ⟨uri, hparsed, hvalue, hstrategy⟩ :=
      hclaimed.mpr (hchecked.publicHost hlongest hdot hname hle hfits hunreserved)
    refine ⟨_, bind_eq_ok.mpr ⟨uri, Library.mapError_eq_ok.mpr hparsed, hstrategy⟩, rfl, ?_⟩
    rw [List.map_singleton, hvalue]

/-- A client's name is not reserved, and an application is served on it. -/
theorem acme_is_served :
    Unreserved (substituted "\x7bclient\x7d.example.com" "acme").toList ∧
      ∃ strategy, redirect ⟨"acme", by decide⟩ [] none "shop" "\x7bclient\x7d.example.com" =
          .ok strategy ∧
        strategy.kind = .claimedHttps ∧
        strategy.uris.map (·.value) =
          [callbackOn (substituted "\x7bclient\x7d.example.com" "acme")] := by
  have hunreserved : Unreserved (substituted "\x7bclient\x7d.example.com" "acme").toList := by
    decide +kernel
  refine ⟨hunreserved, ?_⟩
  exact (@template_serves_iff _ ⟨"acme", by decide⟩ "shop" (by decide) (by decide +kernel)
    (by decide +kernel)).mpr hunreserved

/-- Publishing takes the ordinary template, and a client named after the machine it would be
taken for is refused on it. -/
theorem localhost_is_not_served :
    ¬ ∀ (domain : String) (client : ClientId) (application : String), domain ≠ "" →
      validateDomain domain true = .ok () →
      client.value.utf8ByteSize + affixLen domain ≤ LONGEST_LABEL →
      ∃ strategy, redirect client [] none application domain = .ok strategy ∧
        strategy.kind = .claimedHttps ∧
        strategy.uris.map (·.value) = [callbackOn (substituted domain client.value)] := by
  intro h
  obtain ⟨strategy, hredirect, -⟩ := h "\x7bclient\x7d.example.com"
    ⟨"localhost", by decide⟩ "shop" (by decide) (by decide +kernel) (by decide +kernel)
  have hrefused : (redirect ⟨"localhost", by decide⟩ [] none "shop"
      "\x7bclient\x7d.example.com").isOk = false := by
    decide +kernel
  rw [hredirect] at hrefused
  exact absurd hrefused (by simp [Except.isOk, Except.toBool])

end Templates

end ClientModel
end SaasFabric
