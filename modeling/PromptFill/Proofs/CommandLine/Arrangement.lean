/-
  Arguments in any order and spelling.

  A command line is put together from pieces: operands that do not begin with a dash, titles in
  either of the two ways to give one, and debugging options.  A piece has its tokens whatever the
  spelling (`tokens_flatMap_arguments`).  What was consumed of some pieces is told by their
  operands, the last of their titles and whether debugging is among them (`Progress.ofPieces`).
  Consuming one more piece keeps this (`consume_tokens`), so consuming all ends with it
  (`consume_flatMap_tokens`), and the number of operands decides whether the program starts
  (`parse_pieces`).
-/
import PromptFill.Program
import PromptFill.Proofs.CommandLine.Options
import PromptFill.Proofs.Log.Orderly

namespace PromptFill.CommandLine

variable {arg : Text} {args : List Text} {t : Token} {ts : List Token}

/-! ## Pieces of a command line -/

/-- A text that does not begin with a dash. -/
structure Plain where
  text : Text
  head?_ne : text.head? ≠ some '-'

/-- A way to spell an option. -/
structure Spelling (o : Opt) where
  text : Text
  abbreviates : Abbreviates text o

/-- What stands on a command line. -/
inductive Piece where
  | operand (s : Plain)
  /-- The text of a title is joined to the option by an equals sign, or is the next argument. -/
  | title (name : Spelling .title) (isJoined : Bool) (s : Plain)
  | debug (name : Spelling .debug)

namespace Piece

/-- The arguments that a piece consists of. -/
def arguments : Piece → List Text
  | operand s => [s.text]
  | title name false s => [name.text, s.text]
  | title name true s => [name.text ++ '=' :: s.text]
  | debug name => [name.text]

/-- The tokens of the arguments of a piece. -/
def tokens : Piece → List Token
  | operand s => [.operand s.text]
  | title _ false s => [.option .title none, .operand s.text]
  | title _ true s => [.option .title (some s.text)]
  | debug _ => [.option .debug none]

def operand? : Piece → Option Text
  | operand s => some s.text
  | _ => none

def title? : Piece → Option Text
  | title _ _ s => some s.text
  | _ => none

def isDebug : Piece → Bool
  | debug _ => true
  | _ => false

end Piece

/-- The operands, in their order. -/
def operands (ps : List Piece) : List Text := ps.filterMap Piece.operand?

/-- The title that the last title option gives. -/
def lastTitle (ps : List Piece) : Title := (ps.filterMap Piece.title?).getLast?.elim .unset .text

/-! ## The tokens of pieces -/

theorem Plain.ofArgument (s : Plain) : Token.ofArgument s.text = .ok (.operand s.text) := by
  obtain ⟨_ | ⟨c, s⟩, h⟩ := s
  · rfl
  · have hc : c ≠ '-' := by
      rintro rfl
      exact h rfl
    unfold Token.ofArgument
    split <;> simp_all

theorem Plain.ofJoined (s : Plain) : Title.ofJoined s.text = .text s.text := by
  refine if_neg fun h => s.head?_ne ?_
  rw [h]
  rfl

/-- The separator alone is not taken by itself: two dashes could abbreviate every option. -/
theorem tokens_cons (h : Token.ofArgument arg = .ok t) (args : List Text) :
    tokens (arg :: args) = (tokens args).map (t :: ·) := by
  have hne : arg ≠ separatorText := by
    rintro rfl
    cases h
  rw [tokens, if_neg hne, h]

theorem tokens_arguments (piece : Piece) (h : tokens args = .ok ts) :
    tokens (piece.arguments ++ args) = .ok (piece.tokens ++ ts) := by
  cases piece with
  | operand s =>
    rw [Piece.arguments, List.singleton_append, tokens_cons s.ofArgument, h]
    rfl
  | title name isJoined s =>
    cases isJoined with
    | false =>
      rw [Piece.arguments, List.cons_append, List.singleton_append,
        tokens_cons (ofArgument_of_abbreviates name.abbreviates), tokens_cons s.ofArgument, h]
      rfl
    | true =>
      rw [Piece.arguments, List.singleton_append,
        tokens_cons (ofArgument_joined s.text name.abbreviates), h]
      rfl
  | debug name =>
    rw [Piece.arguments, List.singleton_append,
      tokens_cons (ofArgument_of_abbreviates name.abbreviates), h]
    rfl

theorem tokens_flatMap_arguments (ps : List Piece) :
    tokens (ps.flatMap Piece.arguments) = .ok (ps.flatMap Piece.tokens) := by
  induction ps with
  | nil => rfl
  | cons piece ps ih => exact tokens_arguments piece ih

theorem head?_flatMap_tokens (ps : List Piece) :
    (ps.flatMap Piece.tokens).head? ≠ some .separator := by
  cases ps with
  | nil => simp
  | cons piece ps =>
    cases piece with
    | operand s => simp [Piece.tokens]
    | title name isJoined s => cases isJoined <;> simp [Piece.tokens]
    | debug name => simp [Piece.tokens]

/-! ## Consuming pieces -/

/-- What was consumed of pieces: the first operand is the template, and the others are left over. -/
def Progress.ofPieces (ps : List Piece) : Progress where
  template := (operands ps).head?
  title := lastTitle ps
  debug := ps.any Piece.isDebug
  extras := (operands ps).tail

theorem operands_append (ps qs : List Piece) : operands (ps ++ qs) = operands ps ++ operands qs :=
  List.filterMap_append

theorem ofPieces_operand (ps : List Piece) (s : Plain) :
    Progress.ofPieces (ps ++ [.operand s]) =
      match (Progress.ofPieces ps).template with
      | none => { Progress.ofPieces ps with template := some s.text }
      | some _ => (Progress.ofPieces ps).leave s.text := by
  have hop : operands [.operand s] = [s.text] := rfl
  simp only [Progress.ofPieces, operands_append, hop, Progress.leave]
  cases operands ps <;> simp [lastTitle, Piece.isDebug, Piece.title?]

theorem ofPieces_title (ps : List Piece) (name : Spelling .title) (isJoined : Bool) (s : Plain) :
    Progress.ofPieces (ps ++ [.title name isJoined s]) =
      { Progress.ofPieces ps with title := .text s.text } := by
  have hop : operands [.title name isJoined s] = [] := rfl
  simp [Progress.ofPieces, operands_append, hop, lastTitle, Piece.isDebug, Piece.title?]

theorem ofPieces_debug (ps : List Piece) (name : Spelling .debug) :
    Progress.ofPieces (ps ++ [.debug name]) = { Progress.ofPieces ps with debug := true } := by
  have hop : operands [.debug name] = [] := rfl
  simp [Progress.ofPieces, operands_append, hop, lastTitle, Piece.isDebug, Piece.title?]

/-- Consuming one more piece. -/
theorem consume_tokens (ps : List Piece) (piece : Piece) (h : ts.head? ≠ some .separator) :
    consume (Progress.ofPieces ps) (piece.tokens ++ ts) =
      consume (Progress.ofPieces (ps ++ [piece])) ts := by
  cases piece with
  | operand s =>
    rw [ofPieces_operand, Piece.tokens, List.singleton_append, consume.eq_def]
    cases (Progress.ofPieces ps).template with
    | some _ => rfl
    | none =>
      -- the template would take a separator behind it along
      dsimp only
      split
      · exact absurd rfl h
      · rfl
  | title name isJoined s =>
    rw [ofPieces_title]
    cases isJoined with
    | false => rw [Piece.tokens, List.cons_append, List.singleton_append, consume]
    | true => rw [Piece.tokens, List.singleton_append, consume, s.ofJoined]
  | debug name => rw [ofPieces_debug, Piece.tokens, List.singleton_append, consume]

theorem consume_flatMap_tokens (ps qs : List Piece) :
    consume (Progress.ofPieces ps) (qs.flatMap Piece.tokens) =
      .ok (Progress.ofPieces (ps ++ qs)) := by
  induction qs generalizing ps with
  | nil =>
    rw [List.append_nil]
    rfl
  | cons piece qs ih =>
    rw [List.flatMap_cons, consume_tokens ps piece (head?_flatMap_tokens qs), ih,
      List.append_assoc, List.singleton_append]

theorem parse_flatMap_arguments (ps : List Piece) :
    parse (ps.flatMap Piece.arguments) = (Progress.ofPieces ps).finish := by
  have hconsume := consume_flatMap_tokens [] ps
  rw [List.nil_append] at hconsume
  rw [parse, tokens_flatMap_arguments]
  exact congrArg (· >>= Progress.finish) hconsume

/-! ## Accepted arguments -/

theorem finish_ofPieces_eq_ok_iff {ps : List Piece} {a : Arguments} :
    (Progress.ofPieces ps).finish = .ok a ↔
      ∃ s, operands ps = [s] ∧ a = ⟨Path.ofText s, lastTitle ps, ps.any Piece.isDebug⟩ := by
  have hone {s : Text} {texts : List Text} :
      texts.head? = some s ∧ texts.tail = [] ↔ texts = [s] := by
    cases texts <;> simp
  rw [Progress.finish_eq_ok_iff]
  refine exists_congr fun s => ?_
  rw [← and_assoc]
  exact and_congr_left' hone

/-- What is not accepted in the end is wrong: only an option asks for help. -/
theorem Progress.exists_of_finish_ne_ok {p : Progress} (h : ∀ a, p.finish ≠ .ok a) :
    ∃ e, p.finish = .error (.wrong e) := by
  rw [finish] at h ⊢
  cases htemplate : p.template with
  | none => exact ⟨_, rfl⟩
  | some s =>
    by_cases hextras : p.extras = []
    · simp [htemplate, hextras] at h
    · exact ⟨_, if_neg hextras⟩

/-- With another number of operands than one, the program prints what is wrong and ends. -/
theorem run_of_length_operands_ne {ps : List Piece} (h : (operands ps).length ≠ 1)
    (program logger : Text) (w : World) :
    ∃ e, Action.run (Program.run program logger (ps.flatMap Piece.arguments)) w =
      (.ok .misused, w.printError (errorText program e)) := by
  have hwrong (a : Arguments) : (Progress.ofPieces ps).finish ≠ .ok a := by
    rw [Ne, finish_ofPieces_eq_ok_iff]
    rintro ⟨s, hs, -⟩
    rw [hs] at h
    exact h rfl
  obtain ⟨e, he⟩ := Progress.exists_of_finish_ne_ok hwrong
  refine ⟨e, ?_⟩
  rw [Program.run, parse_flatMap_arguments, he]
  rfl

/-- A program that starts does not end with the code for wrong arguments. -/
theorem code?_ne_of_run_start {logger : Text} {a : Arguments} {w w' : World}
    {outcome : Program.Outcome} (h : Action.run (Program.start logger a) w = (.ok outcome, w')) :
    outcome.code? ≠ some 2 := by
  obtain ⟨settings, w₁, -, h⟩ := Action.run_bind_eq_ok h
  obtain ⟨log, w₂, -, h⟩ := Action.run_bind_eq_ok h
  obtain ⟨template, w₃, -, h⟩ := Action.run_bind_eq_ok h
  cases template <;> cases h <;> simp [Program.Outcome.code?]

/-- **Order and spelling do not matter.**  Pieces in any order, each in any spelling, are accepted
    exactly if one operand is among them.  It is the template; the title is that of the last title
    option, if there is one, and debugging is asked for if an option for it is among the pieces.
    With another number of operands, and only then, the program ends with the code 2. -/
theorem parse_pieces (ps : List Piece) (program logger : Text) (w : World) :
    (∀ a, parse (ps.flatMap Piece.arguments) = .ok a ↔
      ∃ s, operands ps = [s] ∧ a = ⟨Path.ofText s, lastTitle ps, ps.any Piece.isDebug⟩) ∧
    ((∃ outcome w', Action.run (Program.run program logger (ps.flatMap Piece.arguments)) w =
      (.ok outcome, w') ∧ outcome.code? = some 2) ↔ (operands ps).length ≠ 1) := by
  refine ⟨fun a => ?_, ?_, fun hne => ?_⟩
  · rw [parse_flatMap_arguments, finish_ofPieces_eq_ok_iff]
  · rintro ⟨outcome, w', hrun, hcode⟩ hlength
    obtain ⟨s, hs⟩ := List.length_eq_one_iff.1 hlength
    have haccepted := finish_ofPieces_eq_ok_iff.2 ⟨s, hs, rfl⟩
    rw [Program.run, parse_flatMap_arguments, haccepted] at hrun
    exact code?_ne_of_run_start hrun hcode
  · obtain ⟨e, hrun⟩ := run_of_length_operands_ne hne program logger w
    exact ⟨_, _, hrun, rfl⟩

/-- The last title counts, whichever way it is given. -/
example : parse ["--ti=".toList, "t".toList, "--d".toList, "--title".toList, "a=b".toList] =
    .ok ⟨Path.ofText "t".toList, .text "a=b".toList, true⟩ := by rfl

end PromptFill.CommandLine
