import YarnCopilot.Common.Strings

/-!
# Text formats that read back

A `TextCodec` is what a caller of a text encoder relies on: what was encoded decodes to itself. A
`Format` is a printer and a parser of a piece of text with the corresponding law in any context, and
is built from smaller ones: literals, sequences, quoted strings, separated lists and choices.
-/

namespace YarnCopilot

/-- An encoder and a decoder that reads its output back. The decoder may accept more. -/
structure TextCodec (α : Type*) where
  encode : α → String
  decode : String → Option α
  decode_encode : ∀ a, decode (encode a) = some a

attribute [simp] TextCodec.decode_encode

/-- A printer, and a parser that takes the printed text off the input and leaves the rest. -/
structure Format (α : Type*) where
  print : α → List Char
  parse : List Char → Option (α × List Char)
  parse_print : ∀ a rest, parse (print a ++ rest) = some (a, rest)

namespace Format

variable {α β : Type*}

attribute [simp] parse_print

/-! ## Basic formats -/

/-- Take a literal off the input. -/
def takeLit : List Char → List Char → Option (List Char)
  | [], cs => some cs
  | _ :: _, [] => none
  | l :: ls, c :: cs => if l = c then takeLit ls cs else none

@[simp] theorem takeLit_append (text rest : List Char) : takeLit text (text ++ rest) = some rest := by
  induction text with
  | nil => rfl
  | cons c cs ih => simp [takeLit, ih]

/-- A fixed text. -/
def lit (text : String) : Format Unit where
  print := fun _ => text.toList
  parse := fun cs => (takeLit text.toList cs).map fun rest => ((), rest)
  parse_print := by simp

/-- One piece after another. -/
def seq (f : Format α) (g : Format β) : Format (α × β) where
  print := fun p => f.print p.1 ++ g.print p.2
  parse := fun cs => (f.parse cs).bind fun p => (g.parse p.2).map fun q => ((p.1, q.1), q.2)
  parse_print := by simp

/-- The same text read as another type; the reader may refuse a value. -/
def imap (f : Format α) (back : β → α) (read : α → Option β) (h : ∀ b, read (back b) = some b) :
    Format β where
  print := fun b => f.print (back b)
  parse := fun cs => (f.parse cs).bind fun p => (read p.1).map fun b => (b, p.2)
  parse_print := by simp [h]

/-- One of two formats; the first must not accept what the second prints. -/
def choice (f : Format α) (g : Format β) (h : ∀ b rest, f.parse (g.print b ++ rest) = none) :
    Format (α ⊕ β) where
  print := Sum.elim f.print g.print
  parse := fun cs =>
    match f.parse cs with
    | some (a, rest) => some (.inl a, rest)
    | none => (g.parse cs).map fun p => (.inr p.1, p.2)
  parse_print := by
    rintro (a | b) rest
    · simp
    · simp [h]

/-- A format between two fixed texts. -/
def between (first last : String) (f : Format α) : Format α :=
  ((lit first).seq (f.seq (lit last))).imap (fun a => ((), a, ())) (fun p => some p.2.1)
    fun _ => rfl

/-! ## Quoted strings -/

/-- The quotation mark. -/
def quote : Char := '"'

/-- The escape character. -/
def escape : Char := '\\'

/-- The inside of a quoted string and the closing mark. -/
def printQuoted : List Char → List Char
  | [] => [quote]
  | c :: cs =>
    if c = quote ∨ c = escape then escape :: c :: printQuoted cs else c :: printQuoted cs

/-- Read to the closing mark; a character behind the escape character stands for itself. -/
def parseQuoted : (escaped : Bool) → List Char → Option (List Char × List Char)
  | _, [] => none
  | true, c :: cs => (parseQuoted false cs).map fun p => (c :: p.1, p.2)
  | false, c :: cs =>
    if c = quote then some ([], cs)
    else if c = escape then parseQuoted true cs
    else (parseQuoted false cs).map fun p => (c :: p.1, p.2)

theorem parseQuoted_printQuoted (cs rest : List Char) :
    parseQuoted false (printQuoted cs ++ rest) = some (cs, rest) := by
  induction cs with
  | nil => simp [printQuoted, parseQuoted]
  | cons c cs ih =>
    rw [printQuoted]
    split
    · have hescape : escape ≠ quote := by decide
      simp [parseQuoted, hescape, ih]
    · rename_i hplain
      rw [not_or] at hplain
      simp [parseQuoted, hplain.1, hplain.2, ih]

/-- A string in quotation marks. -/
def quoted : Format String where
  print := fun s => quote :: printQuoted s.toList
  parse := fun cs =>
    (takeLit [quote] cs).bind fun cs => (parseQuoted false cs).map fun p => (String.ofList p.1, p.2)
  parse_print := by
    intro s rest
    simp [takeLit, parseQuoted_printQuoted]

/-! ## Lists -/

/-- The rest of a list behind an element: more elements, each behind a comma, and the end. -/
def printTail (f : Format α) (close : Char) : List α → List Char
  | [] => [close]
  | a :: as => ',' :: (f.print a ++ printTail f close as)

/-- Read the rest of a list. The fuel bounds the number of elements. -/
def parseTail (f : Format α) (close : Char) : ℕ → List Char → Option (List α × List Char)
  | 0, _ => none
  | _ + 1, [] => none
  | fuel + 1, c :: cs =>
    if c = close then some ([], cs)
    else if c = ',' then
      (f.parse cs).bind fun p => (parseTail f close fuel p.2).map fun q => (p.1 :: q.1, q.2)
    else none

theorem length_lt_printTail (f : Format α) (close : Char) (as : List α) :
    as.length < (printTail f close as).length := by
  induction as with
  | nil => simp [printTail]
  | cons a as ih =>
    simp only [printTail, List.length_cons, List.length_append]
    omega

theorem parseTail_printTail (f : Format α) {close : Char} (hclose : close ≠ ',') (as : List α)
    (rest : List Char) {fuel : ℕ} (hfuel : as.length < fuel) :
    parseTail f close fuel (printTail f close as ++ rest) = some (as, rest) := by
  induction as generalizing fuel with
  | nil =>
    obtain ⟨fuel, rfl⟩ : ∃ k, fuel = k + 1 := ⟨fuel - 1, by omega⟩
    simp [printTail, parseTail]
  | cons a as ih =>
    obtain ⟨fuel, rfl⟩ : ∃ k, fuel = k + 1 := ⟨fuel - 1, by omega⟩
    have htail : parseTail f close fuel (printTail f close as ++ rest) = some (as, rest) :=
      ih (by simpa using hfuel)
    simp [printTail, parseTail, hclose.symm, htail]

/-- The rest of a list as a format. -/
def tail (f : Format α) (close : Char) (hclose : close ≠ ',') : Format (List α) where
  print := printTail f close
  parse := fun cs => parseTail f close cs.length cs
  parse_print := by
    intro as rest
    -- every element costs a character, so the length of the input is fuel enough
    refine parseTail_printTail f hclose as rest ?_
    have := length_lt_printTail f close as
    rw [List.length_append]
    omega

/-- A list as the choice between an empty text and a first element with the rest. -/
def optionalList (none : Format Unit) (some : Format (α × List α))
    (h : ∀ b rest, none.parse (some.print b ++ rest) = Option.none) : Format (List α) :=
  (none.choice some h).imap
    (fun as => match as with
      | [] => .inl ()
      | a :: as => .inr (a, as))
    (fun s => Option.some (match s with
      | .inl _ => []
      | .inr (a, as) => a :: as))
    (by rintro (_ | ⟨a, as⟩) <;> rfl)

/-- A format that has to cover the whole text. -/
def toCodec (f : Format α) : TextCodec α where
  encode := fun a => String.ofList (f.print a)
  decode := fun s => (f.parse s.toList).bind fun p => if p.2 = [] then some p.1 else none
  decode_encode := by
    intro a
    have h := f.parse_print a []
    rw [List.append_nil] at h
    simp [h]

end Format

end YarnCopilot
