import FirstMatch.Proofs.Json.Numeral

/-!
The texts of JSON values, apart from any reader. A document is a value in the shape in which it is
written: escapes and numerals stand as they are, and members are in their order. It is spelled by
every text that differs from others only in blanks, in the letters of an escape and in how an
exponent is marked. Some documents stand for no value, since a numeral may be too large, and half
of a surrogate pair may be missing.
-/

namespace FirstMatch

/-- A part of a string: a character, or a number of 16 bits in its place. -/
inductive Piece where
  | char (c : Char)
  | unit (n : Nat)

inductive Token where
  | null
  | bool (value : Bool)
  | number (numeral : Numeral)
  | string (pieces : List Piece)

inductive Document where
  | token (token : Token)
  | list (items : List Document)
  | object (members : List (List Piece × Document))

/-! What documents stand for -/

namespace Piece

/-- The characters that the pieces stand for. If this is strict, a number may be the first half
of a pair only right before the second. -/
def text? (mode : Strictness) : List Piece → Option (List Char)
  | [] => some []
  | .char c :: ps => (text? mode ps).map (c :: ·)
  | .unit n :: ps =>
    match mode with
    | .lenient => (text? mode ps).map (Char.ofNat n :: ·)
    | .strict =>
      if Reader.isLowSurrogate n then none
      else if Reader.isHighSurrogate n then
        match ps with
        | .unit m :: qs =>
          if Reader.isLowSurrogate m then
            (text? mode qs).map (Reader.joinSurrogates n m :: ·)
          else none
        | _ => none
      else (text? mode ps).map (Char.ofNat n :: ·)

theorem text?_low {n : Nat} (h : Reader.isLowSurrogate n = true) (ps : List Piece) :
    text? .strict (.unit n :: ps) = none := by
  rw [text?.eq_def]
  simp only [h, if_true]

theorem text?_pair {m n : Nat} (hn : ¬ Reader.isLowSurrogate n = true)
    (h : Reader.isHighSurrogate n = true) (hm : Reader.isLowSurrogate m = true) (ps : List Piece) :
    text? .strict (.unit n :: .unit m :: ps) =
      (text? .strict ps).map (Reader.joinSurrogates n m :: ·) := by
  rw [text?.eq_def]
  simp only [hn, h, hm, if_true, if_false, Bool.false_eq_true]

theorem text?_half {n : Nat} (h : Reader.isHighSurrogate n = true) {ps : List Piece}
    (hs : ∀ m qs, ps = .unit m :: qs → Reader.isLowSurrogate m = false) :
    text? .strict (.unit n :: ps) = none := by
  rw [text?.eq_def]
  simp only [h, if_true]
  split
  · rfl
  · split
    · simp only [hs _ _ rfl, Bool.false_eq_true, if_false]
    · rfl

theorem text?_single {n : Nat} (hl : ¬ Reader.isLowSurrogate n = true)
    (hh : ¬ Reader.isHighSurrogate n = true) (ps : List Piece) :
    text? .strict (.unit n :: ps) = (text? .strict ps).map (Char.ofNat n :: ·) := by
  rw [text?.eq_def]
  simp only [hl, hh, if_false, Bool.false_eq_true]

def string? (mode : Strictness) (ps : List Piece) : Option String :=
  (text? mode ps).map String.ofList

def ofString (s : String) : List Piece := s.toList.map .char

theorem string?_ofString (mode : Strictness) (s : String) : string? mode (ofString s) = some s := by
  have htext : ∀ cs : List Char, text? mode (cs.map .char) = some cs := by
    intro cs
    induction cs with
    | nil => rfl
    | cons c cs ih => rw [List.map_cons, text?, ih, Option.map_some]
  rw [string?, ofString, htext, Option.map_some, String.ofList_toList]

end Piece

/-- The number that is read. Where it does not matter, any will do for one too large. -/
def Numeral.number? (mode : Strictness) (n : Numeral) : Option Number :=
  match n.value?, mode with
  | some k, _ => some k
  | none, .strict => none
  | none, .lenient => some (.integer 0)

def Token.value? (mode : Strictness) : Token → Option Json
  | null => some .null
  | bool b => some (.bool b)
  | number n => (n.number? mode).map .number
  | string ps => (Piece.string? mode ps).map .string

namespace Document

def ofString (s : String) : Document := .token (.string (Piece.ofString s))

mutual

def value? (mode : Strictness) : Document → Option Json
  | .token t => t.value? mode
  | .list items => (items? mode items).map .list
  | .object members => (members? mode members).map .object

def items? (mode : Strictness) : List Document → Option (List Json)
  | [] => some []
  | d :: ds => do
    let v ← d.value? mode
    let vs ← items? mode ds
    return v :: vs

def members? (mode : Strictness) : List (List Piece × Document) → Option (List (String × Json))
  | [] => some []
  | (name, d) :: ms => do
    let key ← Piece.string? mode name
    let v ← d.value? mode
    let rest ← members? mode ms
    return (key, v) :: rest

end

mutual

def height : Document → Nat
  | .token _ => 0
  | .list items => heightItems items + 1
  | .object members => heightMembers members + 1

def heightItems : List Document → Nat
  | [] => 0
  | d :: ds => max d.height (heightItems ds)

def heightMembers : List (List Piece × Document) → Nat
  | [] => 0
  | (_, d) :: ms => max d.height (heightMembers ms)

end

end Document

/-! Spelling -/

def Blank (text : List Char) : Prop := ∀ c ∈ text, Reader.isBlank c = true

instance (text : List Char) : Decidable (Blank text) :=
  List.decidableBAll (Reader.isBlank · = true) text

inductive Piece.Spelled : Piece → List Char → Prop where
  | plain {c : Char} (printable : 0x20 ≤ c.toNat) (quote : c ≠ '"') (backslash : c ≠ '\\') :
      Spelled (.char c) [c]
  | escape {c letter : Char} (escapes : Reader.escape? letter = some c) :
      Spelled (.char c) ['\\', letter]
  | unit {a b c d : Char} {k l m n : Nat} (first : Reader.hexDigit? a = some k)
      (second : Reader.hexDigit? b = some l) (third : Reader.hexDigit? c = some m)
      (fourth : Reader.hexDigit? d = some n) :
      Spelled (.unit (((k * 16 + l) * 16 + m) * 16 + n)) ['\\', 'u', a, b, c, d]

inductive Piece.SpelledAll : List Piece → List Char → Prop where
  | nil : SpelledAll [] []
  | cons {p : Piece} {ps : List Piece} {text rest : List Char} (head : p.Spelled text)
      (tail : SpelledAll ps rest) : SpelledAll (p :: ps) (text ++ rest)

def Piece.Plain (s : String) : Prop := ∀ c ∈ s.toList, 0x20 ≤ c.toNat ∧ c ≠ '"' ∧ c ≠ '\\'

instance (s : String) : Decidable (Piece.Plain s) :=
  List.decidableBAll (fun c : Char => 0x20 ≤ c.toNat ∧ c ≠ '"' ∧ c ≠ '\\') s.toList

theorem Piece.spelledAll_ofString {s : String} (h : Plain s) :
    SpelledAll (ofString s) s.toList := by
  rw [Plain] at h
  rw [ofString]
  generalize s.toList = cs at h ⊢
  induction cs with
  | nil => exact .nil
  | cons c cs ih =>
    obtain ⟨hprint, hquote, hback⟩ := h c List.mem_cons_self
    exact .cons (.plain hprint hquote hback) (ih fun d hd => h d (List.mem_cons_of_mem c hd))

namespace Numeral

/-- An exponent is marked by either letter, and its sign may be left out if it is a plus. -/
inductive ExponentSpelled : Option (Bool × List Char) → List Char → Prop where
  | none : ExponentSpelled none []
  | signed {e : Char} (mark : e = 'e' ∨ e = 'E') (negative : Bool) (digits : List Char) :
      ExponentSpelled (some (negative, digits)) (e :: (if negative then '-' else '+') :: digits)
  | unsigned {e : Char} (mark : e = 'e' ∨ e = 'E') (digits : List Char) :
      ExponentSpelled (some (false, digits)) (e :: digits)

def mantissaText (n : Numeral) : List Char :=
  (if n.negative then ['-'] else []) ++ (n.whole ++ n.fractionText)

inductive Spelled (n : Numeral) : List Char → Prop where
  | mk {tail : List Char} (proper : n.Proper) (exponent : ExponentSpelled n.exponent tail) :
      Spelled n (n.mantissaText ++ tail)

end Numeral

inductive Token.Spelled : Token → List Char → Prop where
  | null : Spelled .null ['n', 'u', 'l', 'l']
  | true : Spelled (.bool true) ['t', 'r', 'u', 'e']
  | false : Spelled (.bool false) ['f', 'a', 'l', 's', 'e']
  | number {n : Numeral} {text : List Char} (spelled : n.Spelled text) : Spelled (.number n) text
  | string {ps : List Piece} {text : List Char} (spelled : Piece.SpelledAll ps text) :
      Spelled (.string ps) ('"' :: (text ++ ['"']))

section Sequences

variable {β : Type} (spelled : β → List Char → Prop) (close : Char)

/-- What follows an element of a sequence: further elements, each after a comma, and the bracket
that closes it. -/
inductive SpelledRest : List β → List Char → Prop where
  | close {blanks : List Char} (blank : Blank blanks) : SpelledRest [] (blanks ++ [close])
  | comma {before after text rest : List Char} {x : β} {xs : List β} (blankBefore : Blank before)
      (blankAfter : Blank after) (head : spelled x text) (tail : SpelledRest xs rest) :
      SpelledRest (x :: xs) (before ++ ',' :: (after ++ (text ++ rest)))

inductive SpelledBody : List β → List Char → Prop where
  | empty {blanks : List Char} (blank : Blank blanks) : SpelledBody [] (blanks ++ [close])
  | cons {blanks text rest : List Char} {x : β} {xs : List β} (blank : Blank blanks)
      (head : spelled x text) (tail : SpelledRest spelled close xs rest) :
      SpelledBody (x :: xs) (blanks ++ (text ++ rest))

end Sequences

inductive SpelledMember (spelled : Document → List Char → Prop) :
    List Piece × Document → List Char → Prop where
  | mk {name : List Piece} {d : Document} {quoted before after text : List Char}
      (key : Piece.SpelledAll name quoted) (blankBefore : Blank before)
      (blankAfter : Blank after) (value : spelled d text) :
      SpelledMember spelled (name, d)
        ('"' :: (quoted ++ '"' :: (before ++ ':' :: (after ++ text))))

/-- The document is written as this text, which starts and ends with it. -/
inductive Document.Spelled : Document → List Char → Prop where
  | token {t : Token} {text : List Char} (spelled : t.Spelled text) : Spelled (.token t) text
  | list {items : List Document} {text : List Char} (body : SpelledBody Spelled ']' items text) :
      Spelled (.list items) ('[' :: text)
  | object {members : List (List Piece × Document)} {text : List Char}
      (body : SpelledBody (SpelledMember Spelled) '}' members text) :
      Spelled (.object members) ('{' :: text)

theorem Document.spelled_ofString (s : String) (h : Piece.Plain s) :
    (ofString s).Spelled ('"' :: (s.toList ++ ['"'])) :=
  .token (.string (Piece.spelledAll_ofString h))

theorem spelledMember_ofString (name : String) (h : Piece.Plain name) {d : Document}
    {text : List Char} (hd : d.Spelled text) :
    SpelledMember Document.Spelled (Piece.ofString name, d)
      ('"' :: (name.toList ++ '"' :: ':' :: text)) :=
  have hblank : Blank [] := by decide
  .mk (Piece.spelledAll_ofString h) hblank hblank hd

/-- The whole text is this document, with any blanks around it. -/
inductive Document.SpelledBy (d : Document) : String → Prop where
  | mk {before text after : List Char} (blankBefore : Blank before) (spelled : d.Spelled text)
      (blankAfter : Blank after) : SpelledBy d (String.ofList (before ++ (text ++ after)))

namespace Document

theorem SpelledBy.of_toList {d : Document} {before text after : List Char} {s : String}
    (hb : Blank before) (hd : d.Spelled text) (ha : Blank after)
    (hs : s.toList = before ++ (text ++ after)) : d.SpelledBy s := by
  rw [← String.ofList_toList (s := s), hs]
  exact .mk hb hd ha

theorem items?_eq (mode : Strictness) (items : List Document) :
    items? mode items = items.mapM (value? mode) := by
  induction items with
  | nil => rfl
  | cons d ds ih =>
    rw [items?, ih, List.mapM_cons]

theorem height_le_of_mem_items {d : Document} {items : List Document} (h : d ∈ items) :
    d.height ≤ heightItems items := by
  induction items with
  | nil => cases h
  | cons e es ih =>
    rw [heightItems]
    rcases List.mem_cons.mp h with rfl | h
    · exact Nat.le_max_left _ _
    · exact Nat.le_trans (ih h) (Nat.le_max_right _ _)

theorem height_le_of_mem_members {m : List Piece × Document}
    {members : List (List Piece × Document)} (h : m ∈ members) :
    m.2.height ≤ heightMembers members := by
  induction members with
  | nil => cases h
  | cons n ns ih =>
    rw [heightMembers]
    rcases List.mem_cons.mp h with rfl | h
    · exact Nat.le_max_left _ _
    · exact Nat.le_trans (ih h) (Nat.le_max_right _ _)

end Document

end FirstMatch
