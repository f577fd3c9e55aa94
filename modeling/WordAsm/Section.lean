import WordAsm.Failure

/-!
# Sections

A program has a data section and a code section, in either order. A marker opens a section,
which runs to the next marker; the end of the marker's line is not part of it.
-/

namespace WordAsm

/-- A section: the name and line of its marker, and its tokens. -/
structure Section where
  name : String
  line : Int
  tokens : List Token
  deriving DecidableEq

namespace Section

/-- Drop the end of the marker's line. -/
def trim : List Token → List Token
  | [] => []
  | token :: rest => if token.content = .lineEnd then rest else token :: rest

/-- Put one token before what follows it: the tokens up to the next marker, and the sections
from there on. -/
def prepend
    (token : Token)
    (following : List Token × List Section) : List Token × List Section :=
  match token.content with
  | .marker name => ([], ⟨name, token.location.line, trim following.1⟩ :: following.2)
  | _ => (token :: following.1, following.2)

/-- The tokens before the first marker, and the sections. -/
def divide (tokens : List Token) : List Token × List Section :=
  tokens.foldr prepend ([], [])

end Section

/-- The two sections of a program, and whether the data section comes first. -/
structure Layout where
  data : Section
  code : Section
  dataFirst : Bool
  deriving DecidableEq

namespace Layout

/-- The sections as they stand in the source. -/
def inOrder (layout : Layout) : List Section :=
  if layout.dataFirst then [layout.data, layout.code] else [layout.code, layout.data]

/-- The layout of some sections: one is named `data`, one `code`, and there is no other. -/
def ofSections (sections : List Section) : Except Failure Layout :=
  let names := sections.map (·.name)
  if !names.contains "data" then .error (.overall (.missingSection "data"))
  else if !names.contains "code" then .error (.overall (.missingSection "code"))
  else
    match sections with
    | [first, second] =>
        if first.name = "data" then .ok ⟨first, second, true⟩ else .ok ⟨second, first, false⟩
    | _ => .error (.overall (.sectionCount sections.length names))

/-- The layout of a program, which starts with a marker. -/
def ofTokens (tokens : List Token) : Except Failure Layout :=
  match Section.divide tokens with
  | (token :: _, _) => .error (.located token.location (.outsideSection token.content))
  | ([], sections) => ofSections sections

end Layout
end WordAsm
