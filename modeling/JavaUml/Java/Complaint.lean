/-!
# Complaints about Java text

What a reader of Java text says about a text it cannot read, and how a complaint
is described in one line.
-/

namespace JavaUml.Java

/-- A complaint about a text. -/
inductive Complaint where
  /-- The characters form no tokens. -/
  | lexical (message : String)
  /-- The tokens form no unit; the place is a line and a column. -/
  | syntactic (description : String) (place : Option (Int × Int))
  deriving DecidableEq, Repr

namespace Complaint

/-- The text of a complaint, or its kind when it has no text. -/
def subject : Complaint → String
  | lexical message => if message.isEmpty then "LexerError" else message
  | syntactic description _ => if description.isEmpty then "JavaSyntaxError" else description

/-- The place of a complaint. -/
def place? : Complaint → Option (Int × Int)
  | lexical _ => none
  | syntactic _ place => place

/-- A complaint in one line. -/
def describe (complaint : Complaint) : String :=
  match complaint.place? with
  | some (line, column) =>
      complaint.subject ++ " at line " ++ toString line ++ ", column " ++ toString column
  | none => complaint.subject

end Complaint

end JavaUml.Java
