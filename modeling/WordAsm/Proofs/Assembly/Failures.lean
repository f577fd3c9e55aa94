import WordAsm.Proofs.Assembly.Stages
import WordAsm.Proofs.Constant.Declarations
import WordAsm.Proofs.Encoding.Failures
import WordAsm.Proofs.Operand
import WordAsm.Proofs.Section
import WordAsm.Proofs.Symbols
import WordAsm.Proofs.Token.Failures
import WordAsm.Proofs.Token.Language

/-!
# Failures of an assembly

An assembly that fails ends in a report, with two exceptions. Reading the source reaches a decimal
numeral beyond the limit, or a message needs a number beyond it. The latter is said stage by
stage; the stages that compare symbols and resolve operands are not concerned.
-/

namespace WordAsm

open Outcome (ReportedUnless)

/-! ## Sections -/

namespace Layout

/-- When a number gets in the way of dividing a program: it stands before the first section, or
there are too many sections to be counted. -/
inductive Unwritable (tokens : List Token) : Prop
  | outside {token : Token} {rest : List Token} :
      tokens = token :: rest →
      token.content.isWritable = false →
      Unwritable tokens
  | count :
      (∀ token ∈ tokens.head?, token.content.isMarker = true) →
      "data" ∈ tokens.filterMap (·.content.marker?) →
      "code" ∈ tokens.filterMap (·.content.marker?) →
      Text.isWritable (tokens.filterMap (·.content.marker?)).length = false →
      Unwritable tokens

theorem reportedUnless_ofSections (sections : List Section) :
    ReportedUnless (ofSections sections)
      ("data" ∈ sections.map (·.name) ∧ "code" ∈ sections.map (·.name) ∧
        Text.isWritable (sections.map (·.name)).length = false) := by
  unfold ofSections
  dsimp only
  split
  · next missing =>
      refine (ReportedUnless.ofWritable rfl).of_iff ?_
      simp_all
  · split
    · next missing =>
        refine (ReportedUnless.ofWritable rfl).of_iff ?_
        simp_all
    · next hasData hasCode =>
        split
        · next first second =>
            have two : Text.isWritable 2 = true := rfl
            split
            · exact (ReportedUnless.ok _).of_iff (by simp [two])
            · exact (ReportedUnless.ok _).of_iff (by simp [two])
        · refine (ReportedUnless.ofFault _).of_iff ?_
          simp_all [Cause.isWritable]

theorem reportedUnless_ofTokens (tokens : List Token) :
    ReportedUnless (ofTokens tokens) (Unwritable tokens) := by
  have leading := Section.head?_divide tokens
  have names := Section.map_name_divide tokens
  unfold ofTokens
  split
  · next token others sections divided =>
      rw [divided, List.head?_cons, eq_comm, Option.filter_eq_some_iff] at leading
      obtain ⟨rest, rfl⟩ := List.head?_eq_some_iff.mp leading.1
      refine (ReportedUnless.ofFault _).of_iff ⟨.outside rfl, ?_⟩
      intro unwritable
      cases unwritable with
      | outside same unwritable =>
          cases same
          exact unwritable
      | count opened =>
          have marker := opened token rfl
          simp [marker] at leading
  · next sections divided =>
      rw [divided, List.head?_nil, eq_comm, Option.filter_eq_none_iff] at leading
      rw [divided] at names
      refine (reportedUnless_ofSections sections).of_iff ?_
      rw [names]
      constructor
      · rintro ⟨data, code, many⟩
        refine .count (fun token first => ?_) data code many
        simpa using leading token first
      · intro unwritable
        cases unwritable with
        | @outside token rest same unwritable =>
            subst same
            obtain ⟨value, content, _⟩ := token.content.exists_number_of_isWritable unwritable
            have marker := leading token rfl
            simp [content, Token.Content.isMarker] at marker
        | count _ data code many => exact ⟨data, code, many⟩

end Layout

/-! ## Declarations -/

/-- Whether a content has the form that the reader gives it: the texts of registers and characters
are those of a register and of a single character. -/
def Token.Content.IsFormed : Content → Prop
  | .register name => Machine.isRegisterName name = true
  | .character text => ∃ c, text.toList = [c]
  | _ => True

/-- Whether the texts of the characters among some tokens are single characters. -/
def Token.HoldSingleCharacters (tokens : List Token) : Prop :=
  ∀ token ∈ tokens, ∀ text, token.content = .character text → ∃ c, text.toList = [c]

theorem reportedUnless_codePoint
    {text : String}
    (single : ∃ c, text.toList = [c]) :
    ReportedUnless (codePoint text) False := by
  obtain ⟨c, text_eq⟩ := single
  rw [codePoint, text_eq]
  exact ReportedUnless.ok _

namespace Constant

/-- Whether a content is a literal of a type. -/
def IsLiteral : ConstantType → Token.Content → Prop
  | .number, .number _ => True
  | .character, .character _ => True
  | _, _ => False

/-- The start of a declaration behind which no number may stand. -/
inductive Unfinished : List Token → Prop
  | nil :
      Unfinished []
  | name {first : Token} {name : String} :
      first.content = .symbol name →
      Unfinished [first]
  | type {first second : Token} {name : String} :
      first.content = .symbol name →
      second.content = .typeWord ConstantType.character.word →
      Unfinished [first, second]
  | literal {first second third : Token} {name : String} {type : ConstantType} :
      first.content = .symbol name →
      second.content = .typeWord type.word →
      IsLiteral type third.content →
      Unfinished [first, second, third]

/-- When a number gets in the way of compiling a data section: it stands behind the start of a
declaration that cannot go on with it. -/
def Unwritable (tokens : List Token) : Prop :=
  ∃ front constants start token back, tokens = front ++ (start ++ token :: back) ∧
    Declarations front constants ∧ Unfinished start ∧ token.content.isWritable = false

theorem reportedUnless_nameOf (token : Token) :
    ReportedUnless (nameOf token) (token.content.isWritable = false) := by
  unfold nameOf
  split
  · next content => exact (ReportedUnless.ok _).of_isWritable (by rw [content]; rfl)
  · exact ReportedUnless.ofFault _

theorem reportedUnless_typeOf (token : Token) :
    ReportedUnless (typeOf token) (token.content.isWritable = false) := by
  unfold typeOf
  split
  · next content =>
      split
      · exact (ReportedUnless.ok _).of_isWritable (by rw [content]; rfl)
      · exact ReportedUnless.ofFault _
  · exact ReportedUnless.ofFault _

/-- A number cannot be written where a character is expected. -/
theorem reportedUnless_literalOf
    (name : String)
    (type : ConstantType)
    (token : Token) :
    ReportedUnless (literalOf name type token)
      (type = .character ∧ token.content.isWritable = false) := by
  unfold literalOf
  split
  · exact (ReportedUnless.ok _).of_iff (by simp)
  · next content => exact (ReportedUnless.ok _).of_iff (by simp [content, Token.Content.isWritable])
  · next content =>
      refine (ReportedUnless.ofFault _).of_iff ?_
      simp [Cause.isWritable, content, Token.Content.isWritable]
  · exact (ReportedUnless.ofFault _).of_iff (by simp [Cause.isWritable])
  · next type _ _ asNumber _ _ asCharacter =>
      refine (ReportedUnless.ofFault _).of_iff ⟨fun unwritable => ?_, And.right⟩
      obtain ⟨value, content, _⟩ := token.content.exists_number_of_isWritable unwritable
      cases type with
      | number => exact (asNumber value rfl content).elim
      | character => exact (asCharacter value rfl content).elim

theorem reportedUnless_value
    (name : String)
    (location : Location)
    (literal : Literal)
    (formed : ∀ text, literal = .character text → ∃ c, text.toList = [c]) :
    ReportedUnless (literal.value name location) False := by
  cases literal with
  | number value => exact ReportedUnless.ok _
  | character text =>
      refine (reportedUnless_codePoint (formed text rfl)).andThen fun point => ?_
      split
      · exact ReportedUnless.ofWritable rfl
      · exact ReportedUnless.ok _

theorem reportedUnless_next
    (part : DeclarationPart)
    (last : Token)
    (tokens : List Token) :
    ReportedUnless (next part last tokens) False := by
  unfold next
  split
  · rw [endsBefore, Failure.located]
    exact ReportedUnless.ofWritable rfl
  · exact ReportedUnless.ok _

theorem reportedUnless_requireLineEnd (token : Token) :
    ReportedUnless (requireLineEnd token) (token.content.isWritable = false) := by
  unfold requireLineEnd
  split
  · exact ReportedUnless.ofFault _
  · next ended =>
      rw [ne_eq, not_not] at ended
      exact (ReportedUnless.ok _).of_isWritable (by rw [ended]; rfl)

/-- A literal is read exactly from a token of its type. -/
theorem isLiteral_of_literalOf
    {name : String}
    {type : ConstantType}
    {token : Token}
    {literal : Literal}
    (read : literalOf name type token = .ok literal) :
    IsLiteral type token.content ∧
      ∀ text, literal = .character text → token.content = .character text := by
  unfold literalOf at read
  split at read
  · next content => cases read; simp [content, IsLiteral]
  · next content => cases read; simp [content, IsLiteral]
  · cases read
  · cases read
  · cases read

theorem exists_literal
    {type : ConstantType}
    {token : Token}
    (literal : IsLiteral type token.content)
    (name : String) :
    ∃ literal, literalOf name type token = .ok literal := by
  unfold literalOf
  cases type <;> cases content : token.content <;> simp_all [IsLiteral]

/-- A declaration in front of a number that gets in the way. -/
theorem Unwritable.cons
    {first second third fourth : Token}
    {tokens : List Token}
    {name : String}
    {type : ConstantType}
    {value : Int}
    (named : first.content = .symbol name)
    (typed : second.content = .typeWord type.word)
    (valued : Value type third.content value)
    (ended : fourth.content = .lineEnd)
    (unwritable : Unwritable tokens) :
    Unwritable (first :: second :: third :: fourth :: tokens) := by
  obtain ⟨front, constants, start, token, back, rfl, declared, unfinished, held⟩ := unwritable
  exact ⟨_, _, start, token, back, rfl, .cons named typed valued ended declared, unfinished, held⟩

/-- What stops a declaration is reported, or it is a number behind the start of the declaration. -/
theorem explained_declaration
    {first : Token}
    {tokens : List Token}
    {failure : Failure}
    (single : Token.HoldSingleCharacters tokens)
    (failed : declaration first tokens = .error failure) :
    failure.IsReport ∨ failure = .longNumber ∧ Unwritable (first :: tokens) := by
  have stops {start back : List Token} {token : Token} (unfinished : Unfinished start)
      (unwritable : token.content.isWritable = false) : Unwritable (start ++ token :: back) :=
    ⟨[], [], start, token, back, rfl, .nil, unfinished, unwritable⟩
  simp only [declaration, Outcome.bind_eq_error_iff, nameOf_eq_ok_iff, next_eq_ok_iff,
    typeOf_eq_ok_iff] at failed
  obtain refused | ⟨name, named, refused | ⟨second, rfl, refused | ⟨type, typed, refused |
    ⟨third, third_eq, refused | ⟨literal, read, refused | ⟨fourth, fourth_eq, refused |
    ⟨_, _, refused | ⟨value, _, impossible⟩⟩⟩⟩⟩⟩⟩⟩ := failed
  · exact ((reportedUnless_nameOf _).explained _ refused).imp_right (And.imp_right (stops .nil))
  · exact .inl ((reportedUnless_next ..).isReport refused)
  · exact ((reportedUnless_typeOf _).explained _ refused).imp_right
      (And.imp_right (stops (.name named)))
  · exact .inl ((reportedUnless_next ..).isReport refused)
  · refine ((reportedUnless_literalOf ..).explained _ refused).imp_right (And.imp_right ?_)
    rintro ⟨rfl, unwritable⟩
    rw [third_eq]
    exact stops (.type named typed) unwritable
  · exact .inl ((reportedUnless_next ..).isReport refused)
  · refine ((reportedUnless_requireLineEnd _).explained _ refused).imp_right (And.imp_right ?_)
    rw [third_eq, fourth_eq]
    exact stops (.literal named typed (isLiteral_of_literalOf read).1)
  · refine .inl ((reportedUnless_value name third.1.location literal ?_).isReport refused)
    intro text character
    exact single third.1 (by simp [third_eq]) text ((isLiteral_of_literalOf read).2 text character)
  · cases impossible

/-- What stops the compilation is reported, or it is a number that gets in the way. -/
theorem explained_declarations
    {before : Array Constant}
    {tokens : List Token}
    {failure : Failure}
    (single : Token.HoldSingleCharacters tokens)
    (failed : declarations before tokens = .error failure) :
    failure.IsReport ∨ failure = .longNumber ∧ Unwritable tokens := by
  induction before, tokens using declarations_induction with
  | nil before => cases failed
  | cons before first tokens hypothesis =>
      rw [declarations_cons] at failed
      obtain refused | ⟨⟨constant, rest⟩, declared, behind⟩ := Outcome.bind_eq_error_iff.mp failed
      · apply explained_declaration _ refused
        exact fun token listed => single token (List.mem_cons_of_mem _ listed)
      · obtain ⟨_, _, _, _, _, _, rfl, named, typed, valued, ended, _⟩ :=
          (declaration_eq_ok_iff ..).mp declared
        have later : Token.HoldSingleCharacters rest :=
          fun token listed => single token (by simp [listed])
        exact (hypothesis _ declared later behind).imp_right
          (And.imp_right (Unwritable.cons named typed valued ended))

/-- A number that gets in the way stops the compilation. -/
theorem Unwritable.declarations_eq
    {tokens : List Token}
    (unwritable : Unwritable tokens)
    (before : Array Constant) :
    declarations before tokens = .error .longNumber := by
  obtain ⟨front, constants, start, token, back, rfl, declared, unfinished, held⟩ := unwritable
  rw [declared.declarations_append]
  cases unfinished with
  | nil => simp [declarations, (reportedUnless_nameOf token).unwritten held]
  | name named =>
      simp [declarations, (nameOf_eq_ok_iff ..).mpr named,
        (reportedUnless_typeOf token).unwritten held]
  | @type _ _ name named typed =>
      simp [declarations, (nameOf_eq_ok_iff ..).mpr named, (typeOf_eq_ok_iff ..).mpr typed,
        (reportedUnless_literalOf name .character token).unwritten ⟨rfl, held⟩]
  | @literal first second third name type named typed valued =>
      obtain ⟨literal, read⟩ := exists_literal valued name
      have inner : token.content ≠ .lineEnd := by
        rintro ending
        simp [ending, Token.Content.isWritable] at held
      simp only [List.cons_append, List.nil_append, declarations, (nameOf_eq_ok_iff ..).mpr named,
        (typeOf_eq_ok_iff ..).mpr typed, read, ne_eq, inner, not_false_eq_true, if_true]
      exact congrArg _ (Failure.ofFault_of_unwritable held)

theorem reportedUnless_compile
    {tokens : List Token}
    (single : Token.HoldSingleCharacters tokens) :
    ReportedUnless (compile tokens) (Unwritable tokens) := by
  have stage : ReportedUnless (declarations #[] tokens) (Unwritable tokens) :=
    ⟨fun _ => explained_declarations single, fun unwritable => unwritable.declarations_eq #[]⟩
  refine stage.andThen fun constants => ?_
  split
  · exact ReportedUnless.ofWritable rfl
  · exact ReportedUnless.ok _

end Constant

/-! ## Symbols and operands -/

namespace Symbols

theorem reportedUnless_declarations
    (before : Table Location)
    (tokens : List Token) :
    ReportedUnless (declarations before tokens) False := by
  induction tokens generalizing before with
  | nil => exact ReportedUnless.ok _
  | cons token tokens hypothesis =>
      rw [declarations]
      split
      · split
        · exact ReportedUnless.ofWritable rfl
        · exact hypothesis _
      · exact hypothesis _

theorem reportedUnless_validate
    (code : List Token)
    (constants : List Constant)
    (entryPoint : String) :
    ReportedUnless (validate code constants entryPoint) False := by
  refine (reportedUnless_declarations {} code).andThen fun labels => ?_
  dsimp only
  split
  · exact ReportedUnless.ofWritable rfl
  · split
    · exact ReportedUnless.ok _
    · exact ReportedUnless.ofWritable rfl

end Symbols

namespace Token

theorem reportedUnless_resolveContent
    (symbols : Symbols)
    (location : Location)
    {content : Content}
    (formed : content.IsFormed) :
    ReportedUnless (resolveContent symbols location content) False := by
  unfold resolveContent
  split
  · exact ReportedUnless.ok _
  · refine (reportedUnless_codePoint formed).andThen fun point => ?_
    split
    · exact ReportedUnless.ofWritable rfl
    · exact ReportedUnless.ok _
  · split
    · exact ReportedUnless.ok _
    · next unknown =>
        rw [Content.IsFormed, Machine.isRegisterName, unknown] at formed
        cases formed
  · split
    · exact ReportedUnless.ok _
    · split
      · exact ReportedUnless.ok _
      · exact ReportedUnless.ofWritable rfl
  · exact ReportedUnless.ok _

theorem reportedUnless_resolveAll
    (symbols : Symbols)
    {tokens : List Token}
    (formed : ∀ token ∈ tokens, token.content.IsFormed) :
    ReportedUnless (resolveAll symbols tokens) False :=
  ReportedUnless.mapM fun token listed =>
    (reportedUnless_resolveContent symbols token.location (formed token listed)).map _

/-- Resolved numbers are words of the machine. -/
theorem Resolves.isWritable
    {symbols : Symbols}
    {content resolved : Content}
    (resolves : Resolves symbols content resolved)
    (bounded : ∀ name constant, symbols.constants.get? name = some constant →
      0 ≤ constant.value ∧ constant.value < 32768) :
    resolved.isWritable = true := by
  cases resolves with
  | number value => exact Text.isWritable_of_word (by omega) (by omega)
  | character _ small => exact Text.isWritable_of_word (by omega) (by omega)
  | register found =>
      have bounds := Machine.registerAddress?_bounds found
      exact Text.isWritable_of_word (by omega) (by omega)
  | constant found =>
      obtain ⟨lower, upper⟩ := bounded _ _ found
      exact Text.isWritable_of_word lower (by omega)
  | reference => rfl
  | @other content plain =>
      cases content with
      | number => cases plain
      | _ => rfl

theorem isWritable_of_resolveAll
    {symbols : Symbols}
    {tokens resolved : List Token}
    (bounded : ∀ name constant, symbols.constants.get? name = some constant →
      0 ≤ constant.value ∧ constant.value < 32768)
    (resolves : resolveAll symbols tokens = .ok resolved) :
    ∀ token ∈ resolved, token.content.isWritable = true := by
  have each := (resolveAll_eq_ok_iff ..).mp resolves
  clear resolves
  induction each with
  | nil => simp
  | cons here _ hypothesis =>
      rw [List.forall_mem_cons]
      exact ⟨here.1.isWritable bounded, hypothesis⟩

/-- The tokens of a source have the form that the reader gives them. -/
theorem isFormed_of_ofSource
    {source file : String}
    {tokens : List Token}
    (read : ofSource source file = .ok tokens) :
    ∀ token ∈ tokens, token.content.IsFormed := by
  intro token listed
  have readable : Readable (tokens.map (·.content)) := Yields.readable ⟨tokens, read, rfl⟩
  obtain ⟨before, admissible⟩ := readable.exists_admissible (List.mem_map_of_mem listed)
  generalize token.content = content at admissible
  cases content with
  | register name => exact (isRegisterLetter_iff name).mp admissible.2
  | character text =>
      obtain ⟨c, rfl⟩ := admissible
      exact ⟨c, String.toList_ofList⟩
  | _ => trivial

end Token

/-! ## Whole programs -/

namespace Assembly

/-- When a number gets in the way of assembling a program: in dividing it, in its data section, or
as the address of a label in its code section. -/
inductive Unwritable (settings : Settings) (tokens : List Token) : Prop
  | layout :
      Layout.Unwritable tokens →
      Unwritable settings tokens
  | data {layout : Layout} :
      Layout.ofTokens tokens = .ok layout →
      Constant.Unwritable layout.data.tokens →
      Unwritable settings tokens
  | code {layout : Layout} {constants : List Constant} {symbols : Symbols}
      {resolved : List Token} :
      Layout.ofTokens tokens = .ok layout →
      Constant.compile layout.data.tokens = .ok constants →
      Symbols.validate layout.code.tokens constants settings.entryPoint = .ok symbols →
      Token.resolveAll symbols layout.code.tokens = .ok resolved →
      Encoder.Outgrown (Address.table resolved) resolved →
      Unwritable settings tokens

/-- The constants of a program lie in the value space. -/
theorem bounded_of_validate
    {data code : List Token}
    {constants : List Constant}
    {entryPoint : String}
    {symbols : Symbols}
    (compiled : Constant.compile data = .ok constants)
    (validated : Symbols.validate code constants entryPoint = .ok symbols) :
    ∀ name constant, symbols.constants.get? name = some constant →
      0 ≤ constant.value ∧ constant.value < 32768 := by
  obtain ⟨declared, _⟩ := (Constant.compile_eq_ok_iff ..).mp compiled
  obtain ⟨_, _, _, rfl⟩ := (Symbols.validate_eq_ok_iff ..).mp validated
  intro name constant found
  exact declared.value_bounds constant (Symbols.mem_of_constantTable_get? found).1

/-- Tokens in the form that the reader gives them are assembled or the failure is reported, unless
a number gets in the way. -/
theorem reportedUnless_ofTokens
    (settings : Settings)
    {tokens : List Token}
    (formed : ∀ token ∈ tokens, token.content.IsFormed) :
    ReportedUnless (ofTokens settings tokens) (Unwritable settings tokens) := by
  have stage : ReportedUnless (ofTokens settings tokens)
      (Layout.Unwritable tokens ∨ ∃ layout, Layout.ofTokens tokens = .ok layout ∧
        (Constant.Unwritable layout.data.tokens ∨
          ∃ constants, Constant.compile layout.data.tokens = .ok constants ∧
          ∃ symbols,
            Symbols.validate layout.code.tokens constants settings.entryPoint = .ok symbols ∧
          ∃ resolved, Token.resolveAll symbols layout.code.tokens = .ok resolved ∧
            Encoder.Outgrown (Address.table resolved) resolved)) := by
    refine (Layout.reportedUnless_ofTokens tokens).bind fun layout divided => ?_
    obtain ⟨dataPart, codePart⟩ := Layout.infix_of_ofTokens divided
    have singleData : Token.HoldSingleCharacters layout.data.tokens := by
      intro token listed text content
      have here := formed token (dataPart.subset listed)
      rwa [content] at here
    have formedCode : ∀ token ∈ layout.code.tokens, token.content.IsFormed :=
      fun token listed => formed token (codePart.subset listed)
    refine (Constant.reportedUnless_compile singleData).bind fun constants compiled => ?_
    refine (Symbols.reportedUnless_validate _ constants _).bindReported fun symbols validated => ?_
    refine (Token.reportedUnless_resolveAll symbols formedCode).bindReported
      fun resolved resolves => ?_
    have bounded := bounded_of_validate compiled validated
    have writable := Token.isWritable_of_resolveAll bounded resolves
    exact (Code.reportedUnless_generate writable).andThen fun code => ReportedUnless.ok _
  refine stage.of_iff ⟨?_, ?_⟩
  · rintro (divided | ⟨layout, divided, declared |
      ⟨constants, compiled, symbols, validated, resolved, resolves, outgrown⟩⟩)
    · exact .layout divided
    · exact .data divided declared
    · exact .code divided compiled validated resolves outgrown
  · intro unwritable
    cases unwritable with
    | layout divided => exact .inl divided
    | data divided declared => exact .inr ⟨_, divided, .inl declared⟩
    | code divided compiled validated resolves outgrown =>
        exact .inr ⟨_, divided, .inr ⟨_, compiled, _, validated, _, resolves, outgrown⟩⟩

/-- A source that cannot be read is not assembled. -/
theorem ofSource_of_unread
    (settings : Settings)
    {source file : String}
    {failure : Failure}
    (unread : Token.ofSource source file = .error failure) :
    ofSource settings source file = .error failure := by
  rw [ofSource, unread]
  rfl

theorem explained_ofSource
    {settings : Settings}
    {source file : String}
    {failure : Failure}
    (failed : ofSource settings source file = .error failure) :
    failure.IsReport ∨
      (failure = .longNumber ∧
        ∃ tokens, Token.ofSource source file = .ok tokens ∧ Unwritable settings tokens) ∨
      ∃ count, failure = .longNumeral count ∧ Token.HoldsLongNumeral source.toList count := by
  cases read : Token.ofSource source file with
  | error other =>
      rw [ofSource_of_unread settings read] at failed
      cases failed
      exact (Token.explained_ofSource read).imp_right .inr
  | ok tokens =>
      rw [ofSource_of_read read] at failed
      have stage := reportedUnless_ofTokens settings (Token.isFormed_of_ofSource read)
      obtain report | ⟨same, unwritable⟩ := (stage.map _).explained failure failed
      · exact .inl report
      · exact .inr (.inl ⟨same, tokens, rfl, unwritable⟩)

/-- Every failure to assemble a source is reported as an error of the assembler, with two
exceptions: exactly if reading reaches a decimal numeral beyond the limit, the failure is that
numeral, and exactly if a message needs a number beyond the limit, it is that number. -/
theorem failures_of_ofSource
    (settings : Settings)
    (source file : String) :
    (∀ failure, ofSource settings source file = .error failure →
        failure.IsReport ∨ failure = .longNumber ∨ ∃ count, failure = .longNumeral count) ∧
      (∀ count, ofSource settings source file = .error (.longNumeral count) ↔
        Token.HoldsLongNumeral source.toList count) ∧
      (ofSource settings source file = .error .longNumber ↔
        ∃ tokens, Token.ofSource source file = .ok tokens ∧ Unwritable settings tokens) := by
  refine ⟨fun failure failed => ?_, fun count => ⟨fun failed => ?_, fun long => ?_⟩,
    fun failed => ?_, ?_⟩
  · exact (explained_ofSource failed).imp_right
      (Or.imp And.left fun ⟨count, same, _⟩ => ⟨count, same⟩)
  · obtain ⟨_, same, _⟩ | ⟨same, _⟩ | ⟨_, same, long⟩ := explained_ofSource failed
    · cases same
    · cases same
    · cases same
      exact long
  · exact ofSource_of_unread settings ((Token.ofSource_eq_longNumeral_iff ..).mpr long)
  · obtain report | ⟨_, unwritable⟩ | ⟨_, same, _⟩ := explained_ofSource failed
    · exact absurd report Failure.not_isReport_longNumber
    · exact unwritable
    · cases same
  · rintro ⟨tokens, read, unwritable⟩
    have stage := reportedUnless_ofTokens settings (Token.isFormed_of_ofSource read)
    rw [ofSource_of_read read, stage.unwritten unwritable]
    rfl

/-- A decimal numeral of 4301 digits is not read. A hexadecimal one of 3600 digits is, but no
message can name it. -/
theorem failures_of_longNumerals :
    ofSource {} (String.ofList (List.replicate 4301 '1')) = .error (.longNumeral 4301) ∧
      ofSource {} (String.ofList ('0' :: 'x' :: List.replicate 3600 'f')) = .error .longNumber := by
  constructor
  · apply ((failures_of_ofSource ..).2.1 4301).mpr
    rw [String.toList_ofList]
    refine ⟨[], [], _, (List.nil_append _).symm, .nil, .inl ⟨_, [], (List.append_nil _).symm, ?_,
      List.length_replicate, by decide, by simp⟩⟩
    intro c listed
    rw [List.eq_of_mem_replicate listed]
    rfl
  · apply (failures_of_ofSource ..).2.2.mpr
    have hexadecimal : ∀ c ∈ List.replicate 3600 'f',
        Lexeme.Radix.hexadecimal.hasDigit c = true := by
      intro c listed
      rw [List.eq_of_mem_replicate listed]
      rfl
    have beyond : Text.isWritable (Text.valueOf 16 (List.replicate 3600 'f')) = false := by
      decide +kernel
    have nonempty : List.replicate 3600 'f' ≠ [] :=
      List.ne_nil_of_length_pos (by rw [List.length_replicate]; decide)
    generalize List.replicate 3600 'f' = digits at hexadecimal beyond nonempty
    have spelled : Lexeme.Spelled ('0' :: 'x' :: digits) (.number (Text.valueOf 16 digits)) :=
      .number (.intro (.letter rfl) nonempty hexadecimal (by simp))
    have cut := Lexeme.Cut.cons spelled (by simp [Lexeme.StopsAt]) (.nil : Lexeme.Cut [] [] [])
    rw [List.append_nil] at cut
    refine ⟨_, (Token.ofSource_eq_ok_iff ..).mpr ⟨_, by rwa [String.toList_ofList], rfl⟩, ?_⟩
    exact .layout (.outside rfl beyond)

end Assembly
end WordAsm
