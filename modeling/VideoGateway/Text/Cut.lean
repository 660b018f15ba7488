/-!
# Cutting texts

Splitting a text at a character and removing a known beginning or end. The
functions on lists carry the meaning; the ones on texts wrap them.
-/
namespace VideoGateway.Text

/-- What follows `start` in `cs`, when `cs` begins with it. -/
def afterStart? : (start cs : List Char) → Option (List Char)
  | [], cs => some cs
  | _ :: _, [] => none
  | x :: xs, c :: cs => if x = c then afterStart? xs cs else none

theorem afterStart?_eq_some_iff {start cs rest : List Char} :
    afterStart? start cs = some rest ↔ cs = start ++ rest := by
  induction start generalizing cs with
  | nil => simp [afterStart?]
  | cons x xs ih =>
    cases cs with
    | nil => simp [afterStart?]
    | cons c cs =>
      by_cases h : x = c
      · simp [afterStart?, h, ih]
      · have h' : ¬ c = x := fun e => h e.symm
        simp [afterStart?, h, h']

/-- What precedes `stop` in `cs`, when `cs` ends with it. -/
def beforeEnd? (stop cs : List Char) : Option (List Char) :=
  (afterStart? stop.reverse cs.reverse).map List.reverse

theorem beforeEnd?_eq_some_iff {stop cs front : List Char} :
    beforeEnd? stop cs = some front ↔ cs = front ++ stop := by
  simp only [beforeEnd?, Option.map_eq_some_iff, afterStart?_eq_some_iff]
  constructor
  · rintro ⟨rest, h, rfl⟩
    have := congrArg List.reverse h
    simpa using this
  · rintro rfl
    exact ⟨front.reverse, by simp, by simp⟩

/-- The parts before and after the first occurrence of `sep`. -/
def cutAt? (sep : Char) : List Char → Option (List Char × List Char)
  | [] => none
  | c :: cs => if c = sep then some ([], cs) else (cutAt? sep cs).map fun (a, b) => (c :: a, b)

theorem cutAt?_eq_some_iff {sep : Char} {cs a b : List Char} :
    cutAt? sep cs = some (a, b) ↔ cs = a ++ sep :: b ∧ sep ∉ a := by
  induction cs generalizing a with
  | nil => simp [cutAt?]
  | cons c cs ih =>
    by_cases h : c = sep
    · subst h
      cases a with
      | nil => simp [cutAt?, eq_comm]
      | cons x xs =>
        simp only [cutAt?, ↓reduceIte, Option.some.injEq, Prod.mk.injEq, List.cons_append,
          List.cons.injEq, List.mem_cons, not_or]
        constructor
        · rintro ⟨h, _⟩; exact absurd h (by simp)
        · rintro ⟨⟨rfl, _⟩, h, _⟩; exact absurd rfl h
    · cases a with
      | nil => simp [cutAt?, h]
      | cons x xs =>
        simp only [cutAt?, h, ↓reduceIte, Option.map_eq_some_iff, Prod.exists, Prod.mk.injEq,
          List.cons.injEq, List.cons_append, List.mem_cons, not_or]
        constructor
        · rintro ⟨a, b', he, ⟨rfl, rfl⟩, rfl⟩
          have := ih.1 he
          exact ⟨⟨rfl, this.1⟩, fun e => h e.symm, this.2⟩
        · rintro ⟨⟨rfl, he⟩, _, hx⟩
          exact ⟨xs, b, ih.2 ⟨he, hx⟩, ⟨rfl, rfl⟩, rfl⟩

/-- The parts of a list between the occurrences of `sep`; always at least one. -/
def splitAll (sep : Char) : List Char → List (List Char)
  | [] => [[]]
  | c :: cs =>
    if c = sep then [] :: splitAll sep cs
    else match splitAll sep cs with
      | [] => [[c]]
      | part :: parts => (c :: part) :: parts

def afterFirst? (part : List Char) : List Char → Option (List Char)
  | [] => afterStart? part []
  | c :: cs => (afterStart? part (c :: cs)).or (afterFirst? part cs)

def stripStart? (start s : String) : Option String :=
  (afterStart? start.toList s.toList).map String.ofList

def stripEnd? (stop s : String) : Option String :=
  (beforeEnd? stop.toList s.toList).map String.ofList

def hasStart (start s : String) : Bool :=
  (afterStart? start.toList s.toList).isSome

def hasEnd (stop s : String) : Bool :=
  (beforeEnd? stop.toList s.toList).isSome

def hasPart (part s : String) : Bool :=
  (afterFirst? part.toList s.toList).isSome

/-- The texts before and after the first occurrence of `sep`. -/
def splitOnce? (sep : Char) (s : String) : Option (String × String) :=
  (cutAt? sep s.toList).map fun (a, b) => (String.ofList a, String.ofList b)

/-- The texts before and after the last occurrence of `sep`. -/
def splitLast? (sep : Char) (s : String) : Option (String × String) :=
  (cutAt? sep s.toList.reverse).map fun (a, b) =>
    (String.ofList b.reverse, String.ofList a.reverse)

def split (sep : Char) (s : String) : List String :=
  (splitAll sep s.toList).map String.ofList

end VideoGateway.Text
