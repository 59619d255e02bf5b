import Mathlib.Algebra.Ring.Nat
import Mathlib.Data.List.Basic

/-! Texts with string literals between single quotes, in the grammar of MySQL: a literal runs
to the next quote that is neither doubled nor escaped.
A literal's value is never longer than what is written for it. So a text that is exactly as
long as its tokens was written without any escape, which tells when quoting a value without
escaping it preserves it.
-/

namespace QuotedLiteral

/-- A character outside of literals, or a whole literal with its decoded value. -/
inductive Token
  | char (char : Char)
  | literal (value : List Char)
  deriving DecidableEq, Repr

/-- Where the lexer is: outside, in a literal, after a quote that ends the literal unless it
is doubled, or after a backslash in a literal.
-/
inductive Mode
  | outside
  | inside (value : List Char)
  | quote (value : List Char)
  | escape (value : List Char)
  deriving DecidableEq, Repr

structure State where
  tokens : List Token
  mode : Mode
  deriving DecidableEq, Repr

/-- What a backslash and this character stand for. `\\%` and `\\_` stay as they are. -/
def unescape : Char → List Char
  | '0' => ['\x00']
  | 'b' => ['\x08']
  | 'n' => ['\n']
  | 'r' => ['\r']
  | 't' => ['\t']
  | 'Z' => ['\x1a']
  | '%' => ['\\', '%']
  | '_' => ['\\', '_']
  | char => [char]

def outside (tokens : List Token) (char : Char) : State :=
  if char = '\'' then ⟨tokens, .inside []⟩ else ⟨tokens ++ [.char char], .outside⟩

def step (state : State) (char : Char) : State :=
  match state.mode with
  | .outside => outside state.tokens char
  | .inside value =>
      if char = '\'' then
        ⟨state.tokens, .quote value⟩
      else if char = '\\' then
        ⟨state.tokens, .escape value⟩
      else
        ⟨state.tokens, .inside (value ++ [char])⟩
  | .quote value =>
      if char = '\'' then
        ⟨state.tokens, .inside (value ++ ['\''])⟩
      else
        outside (state.tokens ++ [.literal value]) char
  | .escape value => ⟨state.tokens, .inside (value ++ unescape char)⟩

/-- The tokens at the end of the text; a literal that is still open is an error. -/
def finish (state : State) : Option (List Token) :=
  match state.mode with
  | .outside => some state.tokens
  | .quote value => some (state.tokens ++ [.literal value])
  | .inside _ | .escape _ => none

def lex (text : List Char) : Option (List Token) :=
  finish (text.foldl step ⟨[], .outside⟩)

-----------------------------------------------------------------------------------------
-- Values that quoting alone preserves
-----------------------------------------------------------------------------------------

/-- No quote, and no backslash but in `\\%` and `\\_`. -/
inductive Safe : List Char → Prop
  | nil : Safe []
  | plain {char rest} (notQuote : char ≠ '\'') (notBackslash : char ≠ '\\')
    (safe : Safe rest)
    : Safe (char :: rest)
  | kept {char rest} (wildcard : char = '%' ∨ char = '_') (safe : Safe rest)
    : Safe ('\\' :: char :: rest)

theorem Safe.of_plain {value : List Char} (plain : ∀ char ∈ value, char ≠ '\'' ∧ char ≠ '\\')
    : Safe value := by
  induction value with
  | nil => exact .nil
  | cons char rest ih =>
      obtain ⟨now, later⟩ := List.forall_mem_cons.mp plain
      exact .plain now.1 now.2 (ih later)

theorem Safe.append {left right : List Char} (leftSafe : Safe left) (rightSafe : Safe right)
    : Safe (left ++ right) := by
  induction leftSafe with
  | nil => exact rightSafe
  | plain notQuote notBackslash _ ih => exact .plain notQuote notBackslash ih
  | kept wildcard _ ih => exact .kept wildcard ih

theorem unescape_wildcard {char : Char} (wildcard : char = '%' ∨ char = '_')
    : unescape char = ['\\', char] := by
  rcases wildcard with rfl | rfl <;> rfl

/-- An escape stands for one character, except for the two that are kept. -/
theorem unescape_length {char : Char} (decoded : ¬ (char = '%' ∨ char = '_'))
    : (unescape char).length = 1 := by
  unfold unescape
  split <;> first | rfl | exact absurd (Or.inl rfl) decoded | exact absurd (Or.inr rfl) decoded

/-- A safe value is read as it is written, by induction on it. -/
theorem Safe.foldl_step {value : List Char} (safe : Safe value) (tokens : List Token)
    (before : List Char)
    : value.foldl step ⟨tokens, .inside before⟩ = ⟨tokens, .inside (before ++ value)⟩ := by
  induction safe generalizing before with
  | nil => simp
  | @plain char rest notQuote notBackslash _ ih =>
      have read : step ⟨tokens, .inside before⟩ char = ⟨tokens, .inside (before ++ [char])⟩ := by
        simp [step, notQuote, notBackslash]
      rw [List.foldl_cons, read, ih]
      simp
  | @kept char rest wildcard _ ih =>
      have read : step (step ⟨tokens, .inside before⟩ '\\') char
          = ⟨tokens, .inside (before ++ ['\\', char])⟩ := by
        simp [step, unescape_wildcard wildcard]
      rw [List.foldl_cons, List.foldl_cons, read, ih]
      simp

-----------------------------------------------------------------------------------------
-- The size of tokens
-----------------------------------------------------------------------------------------

/-- How many characters a token takes at least. -/
def Token.size : Token → Nat
  | .char _ => 1
  | .literal value => value.length + 2

def size (tokens : List Token) : Nat := (tokens.map Token.size).sum

def Mode.size : Mode → Nat
  | .outside => 0
  | .inside value => value.length + 1
  | .quote value | .escape value => value.length + 2

def State.size (state : State) : Nat := QuotedLiteral.size state.tokens + state.mode.size

/-- Only safe values so far. -/
def AllSafe (tokens : List Token) : Prop := ∀ value, .literal value ∈ tokens → Safe value

def Mode.Safe : Mode → Prop
  | .outside => True
  | .inside value | .quote value | .escape value => QuotedLiteral.Safe value

def State.Safe (state : State) : Prop := AllSafe state.tokens ∧ state.mode.Safe

@[simp]
theorem size_append (left right : List Token) : size (left ++ right) = size left + size right := by
  simp [size]

@[simp]
theorem size_nil : size [] = 0 := rfl

@[simp]
theorem size_cons (token : Token) (tokens : List Token)
    : size (token :: tokens) = token.size + size tokens := rfl

@[simp]
theorem size_singleton (token : Token) : size [token] = token.size := by simp [size]

theorem AllSafe.append {left right : List Token} (leftSafe : AllSafe left)
    (rightSafe : AllSafe right)
    : AllSafe (left ++ right) := by
  intro value member
  rcases List.mem_append.mp member with inLeft | inRight
  · exact leftSafe value inLeft
  · exact rightSafe value inRight

theorem allSafe_char (char : Char) : AllSafe [.char char] := by
  intro value member
  cases List.mem_singleton.mp member

theorem allSafe_literal {value : List Char} (safe : Safe value) : AllSafe [.literal value] := by
  intro other member
  obtain rfl := Token.literal.inj (List.mem_singleton.mp member)
  exact safe

theorem outside_spec (tokens : List Token) (char : Char)
    : (outside tokens char).size = size tokens + 1
      ∧ (AllSafe tokens → (outside tokens char).Safe) := by
  unfold outside
  split
  · exact ⟨rfl, fun safe => ⟨safe, .nil⟩⟩
  · refine ⟨by simp [State.size, Mode.size, Token.size], fun safe => ⟨?_, trivial⟩⟩
    exact safe.append (allSafe_char char)

/-- A character adds at most one to the size. It adds nothing where an escape is decoded, and
otherwise it keeps all values safe.
-/
theorem step_spec (state : State) (char : Char)
    : (step state char).size ≤ state.size + 1
      ∧ ((step state char).size = state.size + 1 → state.Safe → (step state char).Safe) := by
  obtain ⟨tokens, mode⟩ := state
  cases mode with
  | outside =>
      obtain ⟨same, safe⟩ := outside_spec tokens char
      exact ⟨Nat.le_of_eq same, fun _ allSafe => safe allSafe.1⟩
  | inside value =>
      by_cases quote : char = '\''
      · subst quote
        exact ⟨Nat.le_refl _, fun _ safe => safe⟩
      · by_cases backslash : char = '\\'
        · subst backslash
          exact ⟨Nat.le_refl _, fun _ safe => safe⟩
        · have plain : Safe [char] := .plain quote backslash .nil
          have read : step ⟨tokens, .inside value⟩ char
              = ⟨tokens, .inside (value ++ [char])⟩ := by
            simp [step, quote, backslash]
          rw [read]
          refine ⟨?_, fun _ safe => ⟨safe.1, safe.2.append plain⟩⟩
          simp only [State.size, Mode.size, List.length_append, List.length_singleton]
          exact Nat.le_refl _
  | quote value =>
      by_cases quote : char = '\''
      · subst quote
        have doubled : (step ⟨tokens, .quote value⟩ '\'').size
            = (State.mk tokens (.quote value)).size := by
          simp [step, State.size, Mode.size]
        refine ⟨by omega, fun same => ?_⟩
        omega
      · obtain ⟨same, safe⟩ := outside_spec (tokens ++ [.literal value]) char
        have read : step ⟨tokens, .quote value⟩ char
            = outside (tokens ++ [.literal value]) char := by
          simp [step, quote]
        rw [read]
        refine ⟨?_, fun _ allSafe => safe (allSafe.1.append (allSafe_literal allSafe.2))⟩
        rw [same]
        simp only [size_append, size_singleton, Token.size, State.size, Mode.size]
        omega
  | escape value =>
      by_cases wildcard : char = '%' ∨ char = '_'
      · have kept : Safe ['\\', char] := .kept wildcard .nil
        have read : step ⟨tokens, .escape value⟩ char
            = ⟨tokens, .inside (value ++ ['\\', char])⟩ := by
          simp [step, unescape_wildcard wildcard]
        rw [read]
        refine ⟨by simp [State.size, Mode.size]; omega, fun _ safe => ⟨safe.1, ?_⟩⟩
        exact safe.2.append kept
      · have decoded : (step ⟨tokens, .escape value⟩ char).size
            = (State.mk tokens (.escape value)).size := by
          simp [step, State.size, Mode.size, unescape_length wildcard]
        refine ⟨by omega, fun same => ?_⟩
        omega

/-- Reading a text adds at most its length, and keeps all values safe if it adds exactly its
length. By induction on the text.
-/
theorem foldl_step_spec (text : List Char) (state : State)
    : (text.foldl step state).size ≤ state.size + text.length
      ∧ ((text.foldl step state).size = state.size + text.length
        → state.Safe
        → (text.foldl step state).Safe) := by
  induction text generalizing state with
  | nil => exact ⟨Nat.le_refl _, fun _ safe => safe⟩
  | cons char rest ih =>
      obtain ⟨le, keeps⟩ := step_spec state char
      obtain ⟨leRest, keepsRest⟩ := ih (step state char)
      simp only [List.foldl_cons, List.length_cons]
      refine ⟨by omega, fun same safe => ?_⟩
      exact keepsRest (by omega) (keeps (by omega) safe)

/-- The tokens of a text take no more than its length, and they take exactly its length only
if every value in them is safe.
-/
theorem lex_size {text : List Char} {tokens : List Token} (lexed : lex text = some tokens)
    : size tokens ≤ text.length ∧ (size tokens = text.length → AllSafe tokens) := by
  obtain ⟨le, keeps⟩ := foldl_step_spec text ⟨[], .outside⟩
  have empty : (State.mk [] .outside).size = 0 := rfl
  have nothing : (State.mk [] .outside).Safe := ⟨fun _ member => absurd member (by simp), trivial⟩
  rw [empty, Nat.zero_add] at le keeps
  unfold lex at lexed
  cases final : text.foldl step ⟨[], .outside⟩ with
  | mk read mode =>
      rw [final] at lexed le keeps
      cases mode with
      | outside =>
          obtain rfl := Option.some.inj lexed
          exact ⟨le, fun same => (keeps same nothing).1⟩
      | quote value =>
          obtain rfl := Option.some.inj lexed
          have sameSize
              : size (read ++ [.literal value]) = (State.mk read (.quote value)).size := by
            simp [State.size, Mode.size, Token.size]
          rw [sameSize]
          refine ⟨le, fun same => ?_⟩
          obtain ⟨safe, last⟩ := keeps same nothing
          exact safe.append (allSafe_literal last)
      | inside value => cases lexed
      | escape value => cases lexed

-----------------------------------------------------------------------------------------
-- Statements with quoted values
-----------------------------------------------------------------------------------------

/-- A text made of pieces that are each followed by a value between quotes, and an end. -/
structure Statement where
  parts : List (List Char × List Char)
  final : List Char
  deriving DecidableEq, Repr

namespace Statement

def render (statement : Statement) : List Char :=
  statement.parts.flatMap (fun part => part.1 ++ ('\'' :: part.2 ++ ['\''])) ++ statement.final

/-- The statement as it is meant: every value is one literal. -/
def tokens (statement : Statement) : List Token :=
  statement.parts.flatMap (fun part => part.1.map .char ++ [.literal part.2])
  ++ statement.final.map .char

/-- The pieces around the values have no quotes, and none of them is missing between two
values.
-/
def WellFormed (statement : Statement) : Prop :=
  (∀ part ∈ statement.parts, part.1 ≠ [] ∧ '\'' ∉ part.1) ∧ '\'' ∉ statement.final

instance (statement : Statement) : Decidable statement.WellFormed :=
  inferInstanceAs (Decidable (_ ∧ _))

end Statement

/-- The lexer has read these tokens, or will have with the next character that is not a
quote.
-/
inductive Settled (tokens : List Token) : State → Prop
  | outside : Settled tokens ⟨tokens, .outside⟩
  | quote {before value} (last : tokens = before ++ [.literal value])
    : Settled tokens ⟨before, .quote value⟩

theorem Settled.finish {tokens : List Token} {state : State} (settled : Settled tokens state)
    : QuotedLiteral.finish state = some tokens := by
  cases settled with
  | outside => rfl
  | quote last => rw [last]; rfl

theorem foldl_step_text {text : List Char} (unquoted : '\'' ∉ text) (tokens : List Token)
    : text.foldl step ⟨tokens, .outside⟩ = ⟨tokens ++ text.map .char, .outside⟩ := by
  induction text generalizing tokens with
  | nil => simp
  | cons char rest ih =>
      obtain ⟨head, tail⟩ := not_or.mp (mt List.mem_cons.mpr unquoted)
      have read : step ⟨tokens, .outside⟩ char = ⟨tokens ++ [.char char], .outside⟩ := by
        simp [step, outside, Ne.symm head]
      rw [List.foldl_cons, read, ih tail]
      simp

/-- A piece without quotes settles the literal before it. -/
theorem Settled.text {tokens : List Token} {state : State} (settled : Settled tokens state)
    {text : List Char} (nonempty : text ≠ []) (unquoted : '\'' ∉ text)
    : text.foldl step state = ⟨tokens ++ text.map .char, .outside⟩ := by
  cases settled with
  | outside => exact foldl_step_text unquoted tokens
  | @quote before value last =>
      cases text with
      | nil => exact absurd rfl nonempty
      | cons char rest =>
          obtain ⟨head, tail⟩ := not_or.mp (mt List.mem_cons.mpr unquoted)
          have read : step ⟨before, .quote value⟩ char = ⟨tokens ++ [.char char], .outside⟩ := by
            simp [step, QuotedLiteral.outside, Ne.symm head, last]
          rw [List.foldl_cons, read, foldl_step_text tail]
          simp

/-- A piece and a safe value between quotes are read as they are meant. -/
theorem Settled.part {tokens : List Token} {state : State} (settled : Settled tokens state)
    {text value : List Char} (nonempty : text ≠ []) (unquoted : '\'' ∉ text)
    (safe : Safe value)
    : Settled (tokens ++ (text.map .char ++ [.literal value]))
        ((text ++ ('\'' :: value ++ ['\''])).foldl step state) := by
  have opened : step ⟨tokens ++ text.map .char, .outside⟩ '\''
      = ⟨tokens ++ text.map .char, .inside []⟩ := rfl
  have closed : step ⟨tokens ++ text.map .char, .inside value⟩ '\''
      = ⟨tokens ++ text.map .char, .quote value⟩ := rfl
  rw [List.foldl_append, settled.text nonempty unquoted, List.cons_append, List.foldl_cons,
    opened, List.foldl_append, safe.foldl_step, List.nil_append, List.foldl_cons, closed,
    List.foldl_nil, ← List.append_assoc]
  exact .quote rfl

/-- Parts with safe values are read as they are meant, by induction on the parts. -/
theorem Settled.parts {tokens : List Token} {state : State} (settled : Settled tokens state)
    (parts : List (List Char × List Char))
    (pieces : ∀ part ∈ parts, part.1 ≠ [] ∧ '\'' ∉ part.1)
    (safe : ∀ part ∈ parts, Safe part.2)
    : Settled (tokens ++ parts.flatMap (fun part => part.1.map .char ++ [.literal part.2]))
        ((parts.flatMap (fun part => part.1 ++ ('\'' :: part.2 ++ ['\'']))).foldl step
          state) := by
  induction parts generalizing tokens state with
  | nil => simpa using settled
  | cons part rest ih =>
      obtain ⟨nonempty, unquoted⟩ := pieces part List.mem_cons_self
      have read := settled.part nonempty unquoted (safe part List.mem_cons_self)
      have later := ih read (fun other member => pieces other (List.mem_cons_of_mem _ member))
        (fun other member => safe other (List.mem_cons_of_mem _ member))
      simpa [List.foldl_append] using later

/-- A statement with safe values is read as it is meant. -/
theorem Statement.lex_render {statement : Statement} (wellFormed : statement.WellFormed)
    (safe : ∀ part ∈ statement.parts, Safe part.2)
    : lex statement.render = some statement.tokens := by
  have settled := (@Settled.outside []).parts statement.parts wellFormed.1 safe
  rw [List.nil_append] at settled
  rw [lex, render, List.foldl_append, tokens]
  cases final : statement.final with
  | nil => simpa [final] using settled.finish
  | cons char rest =>
      have unquoted : '\'' ∉ char :: rest := final ▸ wellFormed.2
      rw [settled.text (by simp) unquoted]
      rfl

theorem size_map_char (text : List Char) : size (text.map .char) = text.length := by
  induction text with
  | nil => rfl
  | cons char rest ih => simpa [size, Token.size, Nat.add_comm] using ih

/-- A text is as long as the tokens that it is meant to have, by induction on the parts. -/
theorem Statement.size_tokens (statement : Statement)
    : size statement.tokens = statement.render.length := by
  obtain ⟨parts, final⟩ := statement
  induction parts with
  | nil => simp [tokens, render, size_map_char]
  | cons part rest ih =>
      simp only [tokens, render, List.flatMap_cons, List.append_assoc, size_append,
        size_map_char, size_cons, Token.size, List.length_append, List.length_cons,
        List.cons_append, List.nil_append] at ih ⊢
      omega

/-- A statement is read as it is meant exactly when all of its values are safe. -/
theorem Statement.lex_render_iff {statement : Statement} (wellFormed : statement.WellFormed)
    : lex statement.render = some statement.tokens
      ↔ ∀ part ∈ statement.parts, Safe part.2 := by
  constructor
  · intro lexed part member
    refine (lex_size lexed).2 statement.size_tokens part.2 ?_
    refine List.mem_append_left _ (List.mem_flatMap.mpr ⟨part, member, ?_⟩)
    exact List.mem_append_right _ List.mem_cons_self
  · exact lex_render wellFormed

end QuotedLiteral
