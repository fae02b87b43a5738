import JassOutline.Proofs.Bounds.Blanking
import JassOutline.Proofs.Bounds.Scanner
import JassOutline.Proofs.Zinc.Cursor.Grammar

/-!
# Nothing faults

Reading a source text cuts lists and texts by position in five places: the buffer in which comments
are blanked, the lexer, the headers of text macros and their invocations, the headers of
declarations, and the cursor over the tokens of zinc code. In none of them does it matter what the
text holds, which number the source has and how many lines text macros may produce: each reader
gives an answer on every input that its type admits, whether some text leads to it or not.

## Key results

- `never_faults`: all five, for all inputs
-/

namespace JassOutline

open BlockComment

theorem Zinc.run_ne_fault (tokens : List Token) (fault : Fault) :
    Zinc.run tokens ≠ .error (.fault fault) := by
  obtain ⟨e, -, hrun⟩ | ⟨program, after, -, hrun, -⟩ := Zinc.run_cases tokens
  · rw [hrun]
    rintro ⟨⟩
  · rw [hrun]
    rintro ⟨⟩

/-- No reader cuts a text or a list of tokens behind its end or inside of a character, lowers a
count of zero or goes round for ever, and each comes to what the reader without positions comes
to. The bytes of a blanked text are a text. -/
theorem never_faults :
    (∀ text, String.fromUTF8? (blankBytes text).toByteArray = some (String.ofList (blank text))) ∧
    (∀ line text, Scan.tokenize line text = .ok (Token.tokenize line text)) ∧
    (∀ header, Cut.definition? header = .ok (TextMacro.signature? header)) ∧
    (∀ site, Cut.invocation site = .ok (Invocation.ofLine site)) ∧
    (∀ keyword tokens, Cut.signature keyword tokens = .ok (Signature.ofTokens keyword tokens)) ∧
    (∀ header region, Cut.libraryOf header region = .ok (Library.ofHeader header region)) ∧
    (∀ header region, Cut.structOf header region = .ok (Struct.ofHeader header region)) ∧
    (∀ record, Cut.globalOf record = .ok (GlobalVariable.ofLine record)) ∧
    (∀ record, Cut.localOf record = .ok (LocalVariable.ofLine record)) ∧
    (∀ record, Cut.memberOf record = .ok (Member.ofLine record)) ∧
    (∀ record, Cut.isMemberLine record = .ok (isMemberLine record)) ∧
    (∀ block, Cut.body block = .ok block.body) ∧
    ∀ tokens fault, Zinc.run tokens ≠ .error (.fault fault) :=
  ⟨fromUTF8?_blankBytes, Scan.tokenize_eq, Cut.definition?_eq, Cut.invocation_eq, Cut.signature_eq,
    Cut.libraryOf_eq, Cut.structOf_eq, Cut.globalOf_eq, Cut.localOf_eq, Cut.memberOf_eq,
    Cut.isMemberLine_eq, Cut.body_eq, Zinc.run_ne_fault⟩

end JassOutline
