import VideoGateway.Proofs.Json.Quoted
import VideoGateway.Json.Reader

/-!
# Written values are read again

The text of a value is read as its outline: texts, members and items come back as
they were, and a number as what its own text is read as. An integer of 64 bits is
read as itself.
-/
namespace VideoGateway

namespace Document

open Json (Token)

variable {stack : List Frame} {expected : Expected} {input tail rest : Bytes} {t : Token}
  {d : Document}

def Next.after (rest : Bytes) : Next → Document × Bytes
  | .go stack expected => readFrom stack expected rest
  | .stop d => (d, rest)

theorem readFrom_of_read? (h : Token.read? input = some (t, tail)) :
    readFrom stack expected input = (advance stack expected t).after tail := by
  rw [readFrom]
  split
  · next hnone => cases h.symm.trans hnone
  · next hsome =>
    cases h.symm.trans hsome
    cases advance stack expected t <;> rfl

/-- The token is a whole value. -/
inductive Leaf : Token → Document → Prop
  | null : Leaf .null .null
  | bool (b : Bool) : Leaf (.bool b) (.bool b)
  | number (value : Option Json.Number) : Leaf (.number value) (.number value)
  | string (value : Option String) : Leaf (.string value) (.string value)

/-- A value stands at the front of the input, in whatever containers. -/
def Stands (input : Bytes) (d : Document) (rest : Bytes) : Prop :=
  ∃ t tail, Token.read? input = some (t, tail) ∧ t ≠ .closeBracket ∧
    ∀ stack, (beginValue stack t).after tail = (complete stack d).after rest

theorem Leaf.stands (h : Leaf t d) (hread : Token.read? input = some (t, rest)) :
    Stands input d rest := by
  refine ⟨t, rest, hread, ?_, fun stack => ?_⟩
  · cases h <;> exact nofun
  · cases h <;> rfl

theorem Stands.readFrom_value (h : Stands input d rest) (stack : List Frame) :
    readFrom stack .value input = (complete stack d).after rest := by
  obtain ⟨t, tail, hread, -, hbegin⟩ := h
  rw [readFrom_of_read? hread]
  exact hbegin stack

theorem Stands.readFrom_firstItem (h : Stands input d rest) (stack : List Frame) :
    readFrom stack .firstItem input = (complete (.item [] :: stack) d).after rest := by
  obtain ⟨t, tail, hread, hclose, hbegin⟩ := h
  have hadvance : advance stack .firstItem t = beginValue (.item [] :: stack) t := by
    cases t with
    | closeBracket => exact absurd rfl hclose
    | _ => rfl
  rw [readFrom_of_read? hread, hadvance]
  exact hbegin _

end Document

namespace Json

open Document (Leaf Stands Frame Expected readFrom readFrom_of_read? complete)

def Number.outline (n : Number) : Document :=
  (Document.ofText (Text.Utf8.encode n.text)).1

mutual

/-- The outline of the text of a value. -/
def outline : Json → Document
  | .null => .null
  | .bool b => .bool b
  | .num n => n.outline
  | .str s => .string (some s)
  | .arr items => .array (outlineItems items) true
  | .obj members => .object (outlineMembers members) true

def outlineItems : List Json → List Document
  | [] => []
  | v :: vs => outline v :: outlineItems vs

def outlineMembers : List (String × Json) → List (Option String × Document)
  | [] => []
  | (k, v) :: ms => (some k, outline v) :: outlineMembers ms

end

section Numbers

variable {c : Char} {cs : List Char}

theorem read?_of_isDigit (h : c.isDigit = true) (rest : Bytes) :
    Token.read? (UInt8.ofNat c.toNat :: rest) =
      Token.number? false (UInt8.ofNat c.toNat :: rest) := by
  -- None of the ten octets begins another token.
  obtain ⟨hlow, hhigh⟩ := toNat_of_isDigit h
  generalize c.toNat = n at hlow hhigh ⊢
  interval_cases n <;> rfl

theorem Numeral.exists_digit (h : Numeral cs) : ∃ c ds, cs = c :: ds ∧ c.isDigit = true := by
  obtain @⟨whole, fraction, exponent, hwhole, -, -⟩ := h
  obtain ⟨c, ds, rfl⟩ := List.exists_cons_of_ne_nil hwhole.ne_nil
  exact ⟨c, ds ++ (fraction ++ exponent), rfl, hwhole.isDigit c List.mem_cons_self⟩

theorem Numeral.read?_signed (h : Numeral cs) (negative : Bool) (rest : Bytes) :
    Token.read? (octets ((if negative then ['-'] else []) ++ cs) ++ rest) =
      Token.number? negative (octets cs ++ rest) := by
  cases negative with
  | true => rfl
  | false =>
    obtain ⟨c, ds, rfl, hdigit⟩ := h.exists_digit
    rw [if_neg Bool.false_ne_true, List.nil_append, octets_cons, (encodeChar_of_isDigit hdigit).1]
    exact read?_of_isDigit hdigit _

theorem Number.text_numeral (n : Number) :
    n.text = "null" ∨ ∃ (negative : Bool) (cs : List Char), Numeral cs ∧
      n.text.toList = (if negative then ['-'] else []) ++ cs := by
  cases n with
  | int n =>
    cases n with
    | ofNat n => exact .inr ⟨false, _, toDigits_numeral n, toList_intText_ofNat n⟩
    | negSucc n => exact .inr ⟨true, _, toDigits_numeral (n + 1), toList_intText_negSucc n⟩
  | real x =>
    cases x with
    | finite negative r =>
      exact .inr ⟨negative, _, jsonMagnitude_numeral r, String.toList_ofList⟩
    | infinite => exact .inl rfl
    | nan => exact .inl rfl

theorem Number.outline_of_leaf {n : Number} {t : Token} {d : Document} (hleaf : Leaf t d)
    (hread : Token.read? (octets n.text.toList ++ []) = some (t, [])) : n.outline = d := by
  have h := (hleaf.stands hread).readFrom_value []
  rw [List.append_nil] at h
  rw [Number.outline, Document.ofText, Document.read, encode_eq_octets, h]
  rfl

theorem Number.read?_text (n : Number) :
    ∃ t, Leaf t n.outline ∧ ∀ rest, Ends rest →
      Token.read? (octets n.text.toList ++ rest) = some (t, rest) := by
  rcases n.text_numeral with hnull | ⟨negative, cs, hcs, htext⟩
  · have hread : ∀ rest, Token.read? (octets n.text.toList ++ rest) = some (.null, rest) := by
      intro rest
      rw [hnull]
      rfl
    rw [Number.outline_of_leaf .null (hread [])]
    exact ⟨.null, .null, fun rest _ => hread rest⟩
  · obtain ⟨value, hvalue⟩ := hcs.read negative
    have hread : ∀ rest, Ends rest →
        Token.read? (octets n.text.toList ++ rest) = some (.number value, rest) := by
      intro rest hrest
      rw [htext, hcs.read?_signed]
      exact hvalue rest hrest
    rw [Number.outline_of_leaf (.number value) (hread [] .nil)]
    exact ⟨.number value, .number value, hread⟩

theorem read?_toDigits {n : Nat} (negative : Bool) (h : n ≤ Word.greatest64)
    (hsign : negative = true → 0 < n ∧ Word.leastSigned64 ≤ -(n : Int)) :
    Token.read? (octets ((if negative then ['-'] else []) ++ Nat.toDigits 10 n) ++ []) =
      some (.number (some (.int (if negative then -(n : Int) else n))), []) := by
  rw [(toDigits_numeral n).read?_signed, ← numberValue_toDigits negative h hsign]
  exact number?_of_parts negative (toDigits_whole n) Ends.nil.noDigit rfl rfl

theorem Number.outline_int {n : Int} (hleast : Word.leastSigned64 ≤ n)
    (hgreatest : n ≤ Word.greatest64) : (Number.int n).outline = .number (some (.int n)) := by
  apply Number.outline_of_leaf (.number _)
  cases n with
  | ofNat n =>
    have hle : n ≤ Word.greatest64 := Int.ofNat_le.mp hgreatest
    rw [Number.text, toList_intText_ofNat]
    exact read?_toDigits false hle nofun
  | negSucc n =>
    have hle : n + 1 ≤ Word.greatest64 := by
      simp only [Word.leastSigned64, Word.greatest64] at hleast ⊢
      omega
    rw [Number.text, toList_intText_negSucc]
    exact read?_toDigits true hle fun _ => ⟨Nat.succ_pos n, hleast⟩

end Numbers

section Values

variable {rest : Bytes}

theorem ends_of_mem {b : UInt8} (h : b ∈ [0x2C, 0x5D, 0x7D]) (rest : Bytes) : Ends (b :: rest) := by
  simp only [List.mem_cons, List.not_mem_nil, or_false] at h
  rcases h with rfl | rfl | rfl
  all_goals
    refine ⟨?_, ?_, ?_, ?_⟩
    · intro b hb
      cases hb
      rfl
    all_goals
      intro h
      cases h

theorem itemChars_ends (vs : List Json) (rest : Bytes) : Ends (octets (itemChars vs) ++ rest) := by
  cases vs with
  | nil => exact ends_of_mem (by simp) rest
  | cons v vs => exact ends_of_mem (by simp) _

theorem memberChars_ends (ms : List (String × Json)) (rest : Bytes) :
    Ends (octets (memberChars ms) ++ rest) := by
  cases ms with
  | nil => exact ends_of_mem (by simp) rest
  | cons m ms => exact ends_of_mem (by simp) _

theorem readFrom_member (stack : List Frame) (expected : Expected) (key : String)
    {done : List (Option String × Document)} {input : Bytes} {d : Document}
    (hkey : Document.advance stack expected (.string (some key)) = .go stack (.colon done (some key)))
    (hvalue : Stands input d rest) :
    readFrom stack expected (octets (quote key) ++ 0x3A :: input) =
      readFrom stack (.afterMember ((some key, d) :: done)) rest := by
  have hcolon : Token.read? (0x3A :: input) = some (.colon, input) := rfl
  rw [readFrom_of_read? (read?_quote key _), hkey]
  calc
    readFrom stack (.colon done (some key)) (0x3A :: input)
        = readFrom (.member done (some key) :: stack) .value input := readFrom_of_read? hcolon
    _ = readFrom stack (.afterMember ((some key, d) :: done)) rest := hvalue.readFrom_value _

-- Over the value, its items and its members at once. What follows a value matters
-- to numbers only, which have no end of their own.
mutual

/-- The text of a value is read as its outline, up to its end. -/
theorem stands_chars : ∀ (v : Json) {rest : Bytes}, Ends rest →
    Stands (octets (chars v) ++ rest) v.outline rest
  | .null, _, _ => Leaf.null.stands rfl
  | .bool true, _, _ => (Leaf.bool true).stands rfl
  | .bool false, _, _ => (Leaf.bool false).stands rfl
  | .num n, _, hrest => by
    obtain ⟨t, hleaf, hread⟩ := n.read?_text
    exact hleaf.stands (hread _ hrest)
  | .str s, rest, _ => (Leaf.string (some s)).stands (read?_quote s rest)
  | .arr [], rest, _ => by
    refine ⟨.openBracket, 0x5D :: rest, rfl, nofun, fun stack => ?_⟩
    exact readFrom_of_read? (t := .closeBracket) rfl
  | .arr (v :: vs), rest, _ => by
    refine ⟨.openBracket, octets (chars v ++ itemChars vs) ++ rest, rfl, nofun, fun stack => ?_⟩
    have hvalue := stands_chars v (itemChars_ends vs rest)
    rw [octets_append, List.append_assoc]
    exact (hvalue.readFrom_firstItem stack).trans (readFrom_items vs [outline v] stack rest)
  | .obj [], rest, _ => by
    refine ⟨.openBrace, 0x7D :: rest, rfl, nofun, fun stack => ?_⟩
    exact readFrom_of_read? (t := .closeBrace) rfl
  | .obj ((key, v) :: ms), rest, _ => by
    refine ⟨.openBrace, octets (quote key ++ ':' :: (chars v ++ memberChars ms)) ++ rest, rfl, nofun,
      fun stack => ?_⟩
    have hvalue := stands_chars v (memberChars_ends ms rest)
    have hmember := readFrom_member stack .firstKey key rfl hvalue
    rw [octets_append, octets_cons, octets_append, List.append_assoc, List.append_assoc,
      List.append_assoc]
    exact hmember.trans (readFrom_members ms [(some key, outline v)] stack rest)

theorem readFrom_items : ∀ (vs : List Json) (done : List Document) (stack : List Frame)
    (rest : Bytes), readFrom stack (.afterItem done) (octets (itemChars vs) ++ rest) =
      (complete stack (.array (done.reverse ++ outlineItems vs) true)).after rest
  | [], done, stack, rest => by
    rw [outlineItems, List.append_nil]
    exact readFrom_of_read? (t := .closeBracket) rfl
  | v :: vs, done, stack, rest => by
    have hcomma : Token.read? (octets (itemChars (v :: vs)) ++ rest) =
        some (.comma, octets (chars v ++ itemChars vs) ++ rest) := rfl
    have hvalue := stands_chars v (itemChars_ends vs rest)
    have hitems := readFrom_items vs (outline v :: done) stack rest
    rw [List.reverse_cons, List.append_assoc, List.singleton_append] at hitems
    rw [readFrom_of_read? hcomma, octets_append, List.append_assoc]
    exact (hvalue.readFrom_value (.item done :: stack)).trans hitems

theorem readFrom_members : ∀ (ms : List (String × Json)) (done : List (Option String × Document))
    (stack : List Frame) (rest : Bytes),
    readFrom stack (.afterMember done) (octets (memberChars ms) ++ rest) =
      (complete stack (.object (done.reverse ++ outlineMembers ms) true)).after rest
  | [], done, stack, rest => by
    rw [outlineMembers, List.append_nil]
    exact readFrom_of_read? (t := .closeBrace) rfl
  | (key, v) :: ms, done, stack, rest => by
    have hcomma : Token.read? (octets (memberChars ((key, v) :: ms)) ++ rest) =
        some (.comma, octets (quote key ++ ':' :: (chars v ++ memberChars ms)) ++ rest) := rfl
    have hvalue := stands_chars v (memberChars_ends ms rest)
    have hmember := readFrom_member stack (.nextKey done) key rfl hvalue
    have hmembers := readFrom_members ms ((some key, outline v) :: done) stack rest
    rw [List.reverse_cons, List.append_assoc, List.singleton_append] at hmembers
    rw [readFrom_of_read? hcomma, octets_append, octets_cons, octets_append, List.append_assoc,
      List.append_assoc, List.append_assoc]
    exact hmember.trans hmembers

end

/-- The text of a value is JSON, and its document is the outline of the value. -/
theorem ofText_bytes (v : Json) : Document.ofText v.bytes = (v.outline, true) := by
  have hstands := (stands_chars v .nil).readFrom_value []
  rw [List.append_nil] at hstands
  have hbytes : v.bytes = octets (chars v) := by
    rw [bytes, encode_eq_octets, text, String.toList_ofList]
  rw [Document.ofText, Document.read, hbytes, hstands]
  rfl

end Values

end Json

end VideoGateway
