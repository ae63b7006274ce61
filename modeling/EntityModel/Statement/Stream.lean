import EntityModel.Statement.Scanner
import EntityModel.Text.Lines

/-!
# Stream of statements

A lazy, one-pass reading of a definition: a line is read only when the statements of the lines
before it have been taken. After a fault, or after the last statement, the stream is exhausted.
-/

namespace EntityModel

inductive StreamStatus where
  | scanning (scanner : Scanner)
  | finished (declaredName? : Option String)
  | failed
deriving Repr, DecidableEq

structure StatementStream where
  label : String
  unread : List (List Char)
  lineCount : Nat
  -- statements of the last line that have not been taken yet
  pending : List Statement
  status : StreamStatus
deriving Repr, DecidableEq

namespace StatementStream

def ofText (label text : String) : StatementStream :=
  ⟨label, Text.lines text.toList, 0, [], .scanning .initial⟩

/-- The name before the body, as far as it has been read; none is known after a fault. -/
def declaredName? (t : StatementStream) : Option String :=
  match t.status with
  | .scanning scanner => scanner.declaredName?
  | .finished name? => name?
  | .failed => none

def pull (label : String) (scanner : Scanner) (lineCount : Nat) :
    List (List Char) → Option (Except SyntaxError Statement) × StatementStream
  | [] =>
      match scanner.finish label with
      | .ok name? => (none, ⟨label, [], lineCount, [], .finished name?⟩)
      | .error e => (some (.error e), ⟨label, [], lineCount, [], .failed⟩)
  | line :: unread =>
      match scanner.step label (lineCount + 1) line with
      | .ok (next, []) => pull label next (lineCount + 1) unread
      | .ok (next, statement :: more) =>
          (some (.ok statement), ⟨label, unread, lineCount + 1, more, .scanning next⟩)
      | .error e => (some (.error e), ⟨label, unread, lineCount + 1, [], .failed⟩)

def next (t : StatementStream) : Option (Except SyntaxError Statement) × StatementStream :=
  match t.pending, t.status with
  | statement :: more, _ => (some (.ok statement), { t with pending := more })
  | [], .scanning scanner => pull t.label scanner t.lineCount t.unread
  | [], _ => (none, t)

end StatementStream

end EntityModel
