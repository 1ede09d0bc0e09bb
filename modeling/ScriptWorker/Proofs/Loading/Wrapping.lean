import ScriptWorker.Loading.Loaded
import ScriptWorker.Proofs.Script.Seams
import ScriptWorker.Proofs.Text.Utf8

/-!
# The tokens of a wrapped function

A signature is compiled as a chunk: its parameters and its body in the text of a function. For
parameters that are identifiers and any body that has tokens on its own, the tokens of the chunk
are those of the frame around those of the body (`tokens_chunk`).
-/

set_option autoImplicit false

namespace ScriptWorker.Loading

open Script Script.Lexer Text

/-- A name of the language that is no reserved word. -/
def IsIdentifier (s : String) : Prop :=
  IsWord (Utf8.encode s) ∧ Mark.ofWord? (Utf8.encode s).toByteArray = none

instance (s : String) : Decidable (IsIdentifier s) := inferInstanceAs (Decidable (_ ∧ _))

/-- The tokens of a list of parameters. -/
def parameterLexemes (params : List String) : List (Kind × Bytes) :=
  (params.map fun p => nameLexeme (Utf8.encode p)).intersperse (charLexeme (byte ','))

theorem IsIdentifier.word {p : String} (h : IsIdentifier p) :
    Lexer.word (Utf8.encode p) = nameLexeme (Utf8.encode p) := by
  rw [Lexer.word, h.2]

/-- The tokens of a list of parameters and of what closes it. -/
theorem lexes_parameters {params : List String} (h : ∀ p ∈ params, IsIdentifier p) :
    Lexes (Utf8.encode (", ".intercalate params) ++ [byte ')'])
      (parameterLexemes params ++ [charLexeme (byte ')')]) := by
  have hclose : Lexes [byte ')'] [charLexeme (byte ')')] := Lexes.nil.single (by decide)
  induction params with
  | nil => exact hclose
  | cons p params ih =>
    obtain ⟨hp, hparams⟩ := List.forall_mem_cons.1 h
    cases params with
    | nil =>
      have hlast := hclose.word hp.1 (by rintro b ⟨⟩; decide)
      rw [hp.word] at hlast
      simpa [parameterLexemes] using hlast
    | cons q params =>
      have hmore := ((ih hparams).space.single (b := byte ',') (by decide)).word hp.1
        (by rintro b ⟨⟩; decide)
      rw [hp.word] at hmore
      rw [String.intercalate_cons_cons, Utf8.encode_append, Utf8.encode_append,
        List.append_assoc, List.append_assoc]
      exact hmore

/-- The bytes of a chunk: its first line, its body and its last line. -/
theorem encode_chunk (s : Signature) :
    Utf8.encode s.chunk =
      (Utf8.encode "return" ++ 0x20 :: (Utf8.encode "function" ++ byte '(' ::
        (Utf8.encode (", ".intercalate s.params) ++ [byte ')']))) ++
      0x0A :: (Utf8.encode s.body ++ 0x0A :: Utf8.encode "end") := by
  have hhead : Utf8.encode "return function(" =
      Utf8.encode "return" ++ 0x20 :: (Utf8.encode "function" ++ [byte '(']) := rfl
  have hclose : Utf8.encode ")\n" = [byte ')', 0x0A] := rfl
  have hend : Utf8.encode "\nend" = 0x0A :: Utf8.encode "end" := rfl
  have hchunk : s.chunk =
      "return function(" ++ ", ".intercalate s.params ++ ")\n" ++ s.body ++ "\nend" := rfl
  simp only [hchunk, Utf8.encode_append, hhead, hclose, hend, List.append_assoc,
    List.cons_append, List.nil_append]

/-- **The wrapper keeps the tokens of the body.** The chunk of a signature is `return function (`,
the parameters with commas between them, `)`, the tokens of the body and `end`. -/
theorem tokens_chunk {s : Signature} (hparams : ∀ p ∈ s.params, IsIdentifier p)
    (hbody : (tokens (Utf8.encode s.body)).2.1 = none) :
    (tokens (Utf8.encode s.chunk)).2.1 = none ∧
    (tokens (Utf8.encode s.chunk)).1.map lexeme =
      [markLexeme .return, markLexeme .function, charLexeme (byte '(')] ++
      parameterLexemes s.params ++ [charLexeme (byte ')')] ++
      (tokens (Utf8.encode s.body)).1.map lexeme ++ [markLexeme .end] := by
  have hend : Lexes (Utf8.encode "end" ++ []) [markLexeme .end] :=
    Lexes.nil.word (by decide) (by rintro b ⟨⟩)
  have hfunction := ((lexes_parameters hparams).single (b := byte '(') (by decide)).word
    (w := Utf8.encode "function") (by decide) (by rintro b ⟨⟩; decide)
  have hreturn := hfunction.space.word (w := Utf8.encode "return") (by decide)
    (by rintro b ⟨⟩; decide)
  have hall := hreturn.append ((tokens_iff.2 ⟨hbody, rfl⟩).append hend)
  rw [List.append_nil, ← encode_chunk] at hall
  obtain ⟨hno, htokens⟩ := tokens_iff.1 hall
  refine ⟨hno, ?_⟩
  rw [htokens, show Lexer.word (Utf8.encode "return") = markLexeme .return from rfl,
    show Lexer.word (Utf8.encode "function") = markLexeme .function from rfl]
  simp only [List.cons_append, List.nil_append, List.append_assoc]

/-- A comment at the end of a body ends there, also one that looks like the start of a longer
one. -/
theorem tokens_chunk_of_comment :
    let s : Signature := ⟨"f", ["a", "b"], "return a --[="⟩
    (∀ p ∈ s.params, IsIdentifier p) ∧ (tokens (Utf8.encode s.body)).2.1 = none ∧
    (tokens (Utf8.encode s.chunk)).2.1 = none ∧
    (tokens (Utf8.encode s.chunk)).1.map lexeme =
      [markLexeme .return, markLexeme .function, charLexeme (byte '('),
        nameLexeme [byte 'a'], charLexeme (byte ','), nameLexeme [byte 'b'],
        charLexeme (byte ')'), markLexeme .return, nameLexeme [byte 'a'], markLexeme .end] := by
  have hparams : ∀ p ∈ ["a", "b"], IsIdentifier p := by decide
  have hbody : (tokens (Utf8.encode "return a --[=")).2.1 = none := rfl
  obtain ⟨hno, htokens⟩ := tokens_chunk (s := ⟨"f", ["a", "b"], "return a --[="⟩) hparams hbody
  exact ⟨hparams, hbody, hno, htokens.trans rfl⟩

end ScriptWorker.Loading
