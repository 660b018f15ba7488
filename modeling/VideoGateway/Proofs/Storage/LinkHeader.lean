import VideoGateway.Http.Header
import VideoGateway.Proofs.Basic
import VideoGateway.Proofs.Text.Cut
import VideoGateway.Proofs.Text.Percent
import VideoGateway.Storage.Location

/-!
# Links as header values

A header value holds no control characters. No link to an object has any: object paths
are escaped, and so is every part of an address but its scheme, its host and its port,
which are made of other characters only. So a link may be sent as the place of a
redirection, unless it begins with a base that is no header value itself.
-/
namespace VideoGateway

open Text.Percent (Written)

namespace Text

/-- None of the characters is a control character. -/
def Visible (cs : List Char) : Prop :=
  ∀ c ∈ cs, 0x20 ≤ c.toNat ∧ c.toNat ≠ 0x7F

instance (cs : List Char) : Decidable (Visible cs) :=
  List.decidableBAll (fun c : Char => 0x20 ≤ c.toNat ∧ c.toNat ≠ 0x7F) cs

variable {cs ds : List Char}

theorem visible_nil : Visible [] := nofun

theorem Visible.append (hcs : Visible cs) (hds : Visible ds) : Visible (cs ++ ds) := by
  intro c hc
  rcases List.mem_append.mp hc with hc | hc
  · exact hcs c hc
  · exact hds c hc

theorem Visible.flatMap {α : Type} {xs : List α} {f : α → List Char}
    (h : ∀ x ∈ xs, Visible (f x)) : Visible (xs.flatMap f) := by
  intro c hc
  obtain ⟨x, hx, hmem⟩ := List.mem_flatMap.mp hc
  exact h x hx c hmem

theorem Visible.intercalate {sep : List Char} {parts : List (List Char)} (hsep : Visible sep)
    (h : ∀ part ∈ parts, Visible part) : Visible (sep.intercalate parts) := by
  induction parts with
  | nil => exact visible_nil
  | cons part rest ih =>
    obtain ⟨hpart, hrest⟩ := List.forall_mem_cons.mp h
    cases rest with
    | nil => rwa [List.intercalate_singleton]
    | cons next rest =>
      rw [List.intercalate_cons_cons]
      exact (hpart.append hsep).append (ih hrest)

theorem digitChar_visible :
    ∀ n, n < 16 → 0x20 ≤ (Nat.digitChar n).toNat ∧ (Nat.digitChar n).toNat ≠ 0x7F := by
  decide

theorem toDigits_visible {base : Nat} (hbase : 1 < base) (hle : base ≤ 16) (n : Nat) :
    Visible (Nat.toDigits base n) := by
  induction n using Nat.strongRecOn with
  | ind n ih =>
    rw [Nat.toDigits_eq_if hbase]
    split
    case isTrue hsmall =>
      exact List.forall_mem_singleton.mpr (digitChar_visible n (by omega))
    case isFalse hlarge =>
      have hless : n / base < n := Nat.div_lt_self (by omega) hbase
      have hdigit : n % base < 16 := Nat.lt_of_lt_of_le (Nat.mod_lt n (by omega)) hle
      exact (ih _ hless).append (List.forall_mem_singleton.mpr (digitChar_visible _ hdigit))

theorem natText_visible (n : Nat) : Visible (natText n).toList := by
  rw [natText, String.toList_ofList]
  exact toDigits_visible (by decide) (by decide) n

theorem triple_visible : Visible "%0123456789ABCDEF".toList := by
  decide

theorem Percent.encode_visible {escaped : UInt8 → Bool}
    (hescaped : ∀ b, Url.isControl b = true → escaped b = true) (s : String) :
    Visible (Percent.encode escaped s).toList := by
  intro c hc
  rcases mem_encode_cases hc with hc | ⟨b, -, hb, rfl⟩
  · exact triple_visible c hc
  · rw [Percent.Written, Bool.or_eq_false_iff] at hb
    have hplain : Url.isControl b = false := by
      rw [Bool.eq_false_iff]
      intro hcontrol
      rw [hescaped b hcontrol] at hb
      cases hb.1
    simp only [Url.isControl, Bool.or_eq_false_iff, decide_eq_false_iff_not,
      UInt8.lt_iff_toNat_lt, UInt8.reduceToNat] at hplain
    rw [Utf8.toNat_charOfNat]
    omega

end Text

open Text (Visible)

namespace Http.HeaderValue

theorem isAllowed_of_mem_encodeChar {c : Char} (h : 0x20 ≤ c.toNat ∧ c.toNat ≠ 0x7F) {b : UInt8}
    (hb : b ∈ String.utf8EncodeChar c) : isAllowed b = true := by
  have hoctet : 0x20 ≤ b.toNat ∧ b.toNat ≠ 0x7F := by
    by_cases hascii : c.toNat < 0x80
    · rw [Text.Utf8.encodeChar_of_ascii hascii] at hb
      obtain rfl := List.mem_singleton.mp hb
      rwa [Text.Utf8.toNat_octet (by omega)]
    · have hlarge := Text.Utf8.le_of_mem_encodeChar hascii b hb
      omega
  have hne : b ≠ 0x7F := fun heq => hoctet.2 (heq ▸ rfl)
  rw [isAllowed, Bool.or_eq_true, Bool.and_eq_true, decide_eq_true_iff, bne_iff_ne]
  exact .inl ⟨UInt8.le_iff_toNat_le.mpr hoctet.1, hne⟩

theorem ofText?_isSome_iff {s : String} :
    (ofText? s).isSome = true ↔ (Text.Utf8.encode s).all isAllowed = true := by
  unfold ofText?
  dsimp only
  split <;> simp [*]

theorem ofText?_of_visible {s : String} (h : Visible s.toList) : (ofText? s).isSome = true := by
  rw [ofText?_isSome_iff, List.all_eq_true]
  intro b hb
  obtain ⟨c, hc, hmem⟩ := List.mem_flatMap.mp hb
  exact isAllowed_of_mem_encodeChar (h c hc) hmem

theorem ofText?_append {s t : String} (hs : (ofText? s).isSome = true)
    (ht : (ofText? t).isSome = true) : (ofText? (s ++ t)).isSome = true := by
  rw [ofText?_isSome_iff] at hs ht ⊢
  rw [Text.Utf8.encode_append, List.all_append, hs, ht]
  rfl

end Http.HeaderValue

namespace ObjectPath

theorem isEscaped_of_isControl {b : UInt8} (h : Url.isControl b = true) : isEscaped b = true := by
  simp only [Url.isControl, Bool.or_eq_true, decide_eq_true_iff] at h
  simp only [isEscaped, Bool.or_eq_true, decide_eq_true_iff]
  exact .inl (h.imp_right UInt8.le_of_lt)

theorem escapePart_visible (part : List Char) : Visible (escapePart part).toList := by
  unfold escapePart
  split
  · decide
  · split
    · decide
    · exact Text.Percent.encode_visible (fun b hb => isEscaped_of_isControl hb) _

theorem ofKey_visible (start key : String) : Visible (ofKey start key).toList := by
  rw [ofKey, String.toList_intercalate]
  refine Visible.intercalate (by decide) fun part hpart => ?_
  obtain ⟨text, htext, rfl⟩ := List.mem_map.mp hpart
  obtain ⟨cs, -, rfl⟩ := List.mem_map.mp htext
  exact escapePart_visible cs

end ObjectPath

namespace Url

/-- None of the parts has a control character. -/
structure VisibleParts (u : Url) : Prop where
  scheme : Visible u.scheme.toList
  user : Visible u.user.toList
  password : Visible u.password.toList
  host : Visible u.host.toList
  path : ∀ segment ∈ u.path, Visible segment.toList
  query : ∀ query, u.query = some query → Visible query.toList

variable {u : Url}

theorem VisibleParts.credentials (h : u.VisibleParts) : Visible u.credentials.toList := by
  have hat : Visible "@".toList := by decide
  have hcolon : Visible ":".toList := by decide
  unfold Url.credentials
  split
  · split
    · exact Text.visible_nil
    · rw [String.toList_append]
      exact h.user.append hat
  · simp only [String.toList_append]
    exact ((h.user.append hcolon).append h.password).append hat

theorem VisibleParts.origin (h : u.VisibleParts) : Visible u.origin.toList := by
  have hcolon : Visible ":".toList := by decide
  unfold Url.origin
  split
  case h_1 => exact h.host
  case h_2 port _ =>
    simp only [String.toList_append]
    exact (h.host.append hcolon).append (Text.natText_visible port)

theorem VisibleParts.base (h : u.VisibleParts) : Visible u.base.toList := by
  have hmark : Visible "://".toList := by decide
  have hslash : Visible "/".toList := by decide
  have hpath : Visible (String.join (u.path.map ("/" ++ ·))).toList := by
    rw [String.toList_join]
    refine Visible.flatMap fun part hpart => ?_
    obtain ⟨segment, hsegment, rfl⟩ := List.mem_map.mp hpart
    rw [String.toList_append]
    exact hslash.append (h.path segment hsegment)
  simp only [Url.base, String.toList_append]
  exact (((h.scheme.append hmark).append h.credentials).append h.origin).append hpath

theorem VisibleParts.text (h : u.VisibleParts) : Visible u.text.toList := by
  have hmark : Visible "?".toList := by decide
  unfold Url.text
  split
  case h_1 => exact h.base
  case h_2 query hquery =>
    simp only [String.toList_append]
    exact (h.base.append hmark).append (h.query query hquery)

theorem isEscapedInPath_of_isControl {b : UInt8} (h : isControl b = true) :
    isEscapedInPath b = true := by
  simp [isEscapedInPath, isEscapedInFragment, h]

theorem isEscapedInUser_of_isControl {b : UInt8} (h : isControl b = true) :
    isEscapedInUser b = true := by
  simp [isEscapedInUser, isEscapedInPath_of_isControl h]

theorem isEscapedInQuery_of_isControl {b : UInt8} (h : isControl b = true) :
    isEscapedInQuery b = true := by
  simp [isEscapedInQuery, h]

theorem eightWords_visible (ws : List Nat) : Visible (eightWords ws) := by
  have hwords (vs : List Nat) : Visible (wordsText vs) := by
    refine Visible.intercalate (by decide) fun part hpart => ?_
    obtain ⟨n, -, rfl⟩ := List.mem_map.mp hpart
    exact Text.toDigits_visible (by decide) (by decide) n
  have hgap : Visible [':', ':'] := by decide
  unfold eightWords
  split
  case h_1 => exact hwords ws
  case h_2 i n _ => exact (hwords _).append (hgap.append (hwords _))

theorem dotted_visible (n : Nat) : Visible (dotted n) := by
  have hdot : Visible ['.'] := by decide
  have hoctet (k : Nat) := Text.natText_visible (n >>> (8 * k) % 256)
  exact (((hoctet 3).append (hdot.append (hoctet 2))).append (hdot.append (hoctet 1))).append
    (hdot.append (hoctet 0))

theorem fourOctets?_visible {name text : List Char} (h : fourOctets? name = some text) :
    Visible text := by
  unfold fourOctets? at h
  dsimp only at h
  split at h
  case isFalse => cases h
  case isTrue =>
    split at h
    case h_2 => cases h
    case h_1 ns _ =>
      obtain ⟨n, -, rfl⟩ := Option.map_eq_some_iff.mp h
      exact dotted_visible n

theorem visible_of_not_forbidden {name : List Char} (h : name.any isForbiddenInName = false) :
    Visible name := by
  intro c hc
  have hplain := List.any_eq_false.mp h c hc
  simp only [isForbiddenInName, Bool.not_eq_true, Bool.or_eq_false_iff,
    decide_eq_false_iff_not] at hplain
  omega

theorem host?_visible {cs : List Char} {host : String} (h : host? cs = some host) :
    Visible host.toList := by
  have hopen : Visible ['['] := by decide
  have hclose : Visible [']'] := by decide
  unfold host? at h
  split at h
  case h_1 => cases h
  case h_2 rest =>
    split at h
    case h_1 => cases h
    case h_2 inner _ =>
      obtain ⟨ws, -, rfl⟩ := Option.map_eq_some_iff.mp h
      rw [String.toList_ofList]
      exact hopen.append ((eightWords_visible ws).append hclose)
  case h_3 =>
    split at h
    case h_1 => cases h
    case h_2 decoded _ =>
      dsimp only at h
      split at h
      case isTrue => cases h
      case isFalse hname =>
        rw [Bool.or_eq_true, not_or, Bool.not_eq_true, Bool.not_eq_true] at hname
        split at h
        case isTrue =>
          obtain ⟨text, htext, rfl⟩ := Option.map_eq_some_iff.mp h
          rw [String.toList_ofList]
          exact fourOctets?_visible htext
        case isFalse =>
          obtain rfl := Option.some.inj h
          rw [String.toList_ofList]
          exact visible_of_not_forbidden hname.2

theorem pushSegment_visible {isLast : Bool} {done : List String} (segment : List Char)
    (h : ∀ part ∈ done, Visible part.toList) :
    ∀ part ∈ pushSegment isLast done segment, Visible part.toList := by
  have hempty : Visible "".toList := Text.visible_nil
  have htail : ∀ part ∈ done.tail, Visible part.toList :=
    fun part hpart => h part (List.mem_of_mem_tail hpart)
  unfold pushSegment
  dsimp only
  split
  · split
    · exact List.forall_mem_cons.mpr ⟨hempty, h⟩
    · exact h
  · split
    · split
      · exact List.forall_mem_cons.mpr ⟨hempty, htail⟩
      · exact htail
    · exact List.forall_mem_cons.mpr
        ⟨Text.Percent.encode_visible (fun _ => isEscapedInPath_of_isControl) _, h⟩

theorem pushSegments_visible {done : List String} (segments : List (List Char))
    (h : ∀ part ∈ done, Visible part.toList) :
    ∀ part ∈ pushSegments done segments, Visible part.toList := by
  induction segments generalizing done with
  | nil => exact h
  | cons segment rest ih =>
    cases rest with
    | nil => exact pushSegment_visible segment h
    | cons next rest => exact ih (pushSegment_visible segment h)

theorem VisibleParts.withTail (h : u.VisibleParts) {kept : List String}
    (hkept : ∀ part ∈ kept, Visible part.toList) (cs : List Char) :
    (u.withTail kept cs).VisibleParts where
  scheme := h.scheme
  user := h.user
  password := h.password
  host := h.host
  path segment hsegment := pushSegments_visible _ hkept segment (List.mem_reverse.mp hsegment)
  query query hquery := by
    obtain ⟨text, -, rfl⟩ := Option.map_eq_some_iff.mp hquery
    exact Text.Percent.encode_visible (fun _ => isEscapedInQuery_of_isControl) _

theorem scheme_visible {scheme : String} (h : (impliedPorts.lookup scheme).isSome = true) :
    Visible scheme.toList := by
  obtain ⟨port, hport⟩ := Option.isSome_iff_exists.mp h
  have hall : ∀ entry ∈ impliedPorts, Visible entry.1.toList := by decide
  exact hall _ (mem_of_lookup_eq_some hport)

/-- No address that is read has a control character in its parts. -/
theorem parse?_visible {s : String} (h : parse? s = some u) : u.VisibleParts := by
  unfold parse? at h
  split at h
  case h_1 => cases h
  case h_2 scheme rest _ =>
    split at h
    case isFalse => cases h
    case isTrue hscheme =>
      unfold afterSlashes? at h
      dsimp only at h
      split at h
      case h_2 => cases h
      case h_1 host port hhost hport =>
        obtain rfl := Option.some.inj h
        refine VisibleParts.withTail ?_ (fun _ hpart => absurd hpart List.not_mem_nil) _
        exact {
          scheme := scheme_visible hscheme
          user := Text.Percent.encode_visible (fun _ => isEscapedInUser_of_isControl) _
          password := Text.Percent.encode_visible (fun _ => isEscapedInUser_of_isControl) _
          host := host?_visible hhost
          path := fun _ hsegment => absurd hsegment List.not_mem_nil
          query := nofun }

end Url

namespace BucketLocation

/-- A link to an object may be sent in a header field, if the base of public links may. -/
theorem link_isHeader {l : BucketLocation} {key link : String} {lifetime : Option Nat}
    (hbase : (Http.HeaderValue.ofText? l.publicBase).isSome = true)
    (h : l.link key lifetime = .ok link) : (Http.HeaderValue.ofText? link).isSome = true := by
  unfold BucketLocation.link at h
  dsimp only at h
  split at h
  case h_1 =>
    obtain rfl := Except.ok.inj h
    have hslash : (Http.HeaderValue.ofText? "/").isSome = true := by decide
    have hpath := Http.HeaderValue.ofText?_of_visible (ObjectPath.ofKey_visible l.keyStart key)
    exact Http.HeaderValue.ofText?_append (Http.HeaderValue.ofText?_append hbase hslash) hpath
  case h_2 signing _ =>
    split at h
    case h_2 => cases h
    case h_1 url hurl =>
      obtain rfl := Except.ok.inj h
      obtain ⟨u, hu, rfl⟩ := Option.map_eq_some_iff.mp hurl
      have hmark : Visible "?X-Amz-Expires=".toList := by decide
      apply Http.HeaderValue.ofText?_of_visible
      simp only [String.toList_append]
      exact ((Url.parse?_visible hu).text.append hmark).append (Text.natText_visible _)

end BucketLocation

namespace Storage

theorem location_publicBase {c : StorageConfig} {l : BucketLocation} (h : c.location = .ok l) :
    l.publicBase = c.publicBase := by
  unfold StorageConfig.location at h
  split at h
  · cases h
  · split at h
    · cases h
    · split at h <;> cases h
      rfl

/-- In a storage that is configured, public links begin with the domain that serves them. -/
theorem publicBase_of_ofConfig {c : StorageConfig} {s : Storage} {domain : String}
    (h : ofConfig c = .ok (some s)) (hdomain : s.redirectDomain = some domain) :
    s.location.publicBase = domain := by
  unfold ofConfig at h
  split at h
  case isFalse => cases h
  case isTrue =>
    obtain ⟨l, hl, hs⟩ := map_eq_ok_iff.mp h
    obtain rfl := Option.some.inj hs
    have hdomain : c.domain = some domain := hdomain
    show l.publicBase = domain
    rw [location_publicBase hl, StorageConfig.publicBase, hdomain]

end Storage

end VideoGateway
