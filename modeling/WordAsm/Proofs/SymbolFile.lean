import WordAsm.Proofs.Assembly.Closure
import WordAsm.Proofs.Text.Lines
import WordAsm.Proofs.Token.Lines

/-!
# The symbol file is read back

A line of a symbol file holds a name, a kind and a hexadecimal numeral with one space between them.
None of the three holds a space or the end of a line, and no name starts like a heading, so the
lines and their parts are found again. The names of a program differ, so the lines taken as a table
are the symbols of the program.
-/

namespace WordAsm

/-! ## Numerals -/

namespace Text

theorem isHexDigit_toUpper_digitChar
    {digit : Nat}
    (small : digit < 16) :
    isHexDigit (Nat.digitChar digit).toUpper = true := by
  revert digit
  decide

theorem digitValue_toUpper_digitChar
    {digit : Nat}
    (small : digit < 16) :
    digitValue (Nat.digitChar digit).toUpper = digitValue (Nat.digitChar digit) := by
  revert digit
  decide

/-- The digits of a number in capitals, with zeros in front of them. -/
def capitalDigits
    (width : Nat)
    (n : Nat) : List Char :=
  ((Nat.toDigits 16 n).map Char.toUpper).leftpad width '0'

theorem isHexDigit_of_mem_capitalDigits
    {width n : Nat}
    {c : Char}
    (listed : c ∈ capitalDigits width n) :
    isHexDigit c = true := by
  rw [capitalDigits, List.leftpad, List.mem_append] at listed
  obtain zero | digit := listed
  · rw [List.eq_of_mem_replicate zero]
    rfl
  · obtain ⟨d, among, rfl⟩ := List.mem_map.mp digit
    obtain ⟨value, small, rfl⟩ := exists_digitChar_of_mem_toDigits among
    exact isHexDigit_toUpper_digitChar small

theorem capitalDigits_ne_nil (width n : Nat) :
    capitalDigits width n ≠ [] := by
  simp [capitalDigits, List.leftpad, Nat.toDigits_ne_nil]

/-- Neither capitals nor zeros in front change the value of a numeral. -/
theorem valueOf_capitalDigits (width n : Nat) :
    valueOf 16 (capitalDigits width n) = n := by
  have zeros (count : Nat) (digits : List Char) :
      valueOf 16 (List.replicate count '0' ++ digits) = valueOf 16 digits := by
    induction count with
    | zero => rfl
    | succ count hypothesis => exact hypothesis
  have capitals : valueOf 16 ((Nat.toDigits 16 n).map Char.toUpper) =
      valueOf 16 (Nat.toDigits 16 n) := by
    rw [valueOf, List.foldl_map]
    apply List.foldl_ext
    intro value c listed
    obtain ⟨digit, small, rfl⟩ := exists_digitChar_of_mem_toDigits listed
    rw [digitValue_toUpper_digitChar small]
  rw [capitalDigits, List.leftpad, zeros, capitals, valueOf_toDigits]

/-- A numeral of any width has its sign in front of its digits. -/
theorem toList_hexadecimal
    (width : Nat)
    (n : Int) :
    (hexadecimal width n).toList =
      if n < 0 then '-' :: capitalDigits (width - 1) n.natAbs
      else capitalDigits width n.natAbs := by
  rw [hexadecimal, String.toList_ofList]
  split <;> rfl

end Text

namespace SymbolFile

/-- Whether a line of a symbol file starts with a number sign and holds no symbol. -/
def isRemark (row : String) : Bool :=
  row.toList.head? == some '#'

/-! ## Lines -/

namespace Symbol

theorem value?_of_digits
    {digits : List Char}
    (hexadecimal : ∀ c ∈ digits, Text.isHexDigit c = true)
    (nonempty : digits ≠ []) :
    value? digits = some (Text.valueOf 16 digits : Int) ∧
      value? ('-' :: digits) = some (-(Text.valueOf 16 digits : Int)) := by
  have numeral : (digits.all Text.isHexDigit && !digits.isEmpty) = true := by
    rw [Bool.and_eq_true, List.all_eq_true]
    exact ⟨hexadecimal, by simpa using nonempty⟩
  constructor
  · unfold value?
    split
    · cases hexadecimal '-' List.mem_cons_self
    · exact if_pos numeral
  · exact if_pos numeral

/-- Every number is read from its numeral. -/
theorem value?_hexadecimal
    (width : Nat)
    (n : Int) :
    value? (Text.hexadecimal width n).toList = some n := by
  have read (width : Nat) := value?_of_digits
    (fun _ listed => Text.isHexDigit_of_mem_capitalDigits listed)
    (Text.capitalDigits_ne_nil width n.natAbs)
  simp only [Text.valueOf_capitalDigits] at read
  rw [Text.toList_hexadecimal]
  split
  · rw [(read _).2]
    congr 1
    omega
  · rw [(read _).1]
    congr 1
    omega

/-- The parts of a line. -/
def parts (symbol : Symbol) : List (List Char) :=
  [symbol.name.toList, symbol.kind.word.toList, '$' :: (Text.hexadecimal 4 symbol.value).toList]

theorem toList_line (symbol : Symbol) :
    symbol.line.toList = [' '].intercalate symbol.parts := by
  simp [line, parts, List.intercalate]

/-- Whether a character can be part of a symbol's line, spaces apart. -/
def IsPlain (c : Char) : Prop :=
  Lexeme.isNameCharacter c = true ∨ c = '-' ∨ c = '$'

/-- The parts of a line are made of letters, digits and marks. -/
theorem isPlain_of_mem_parts
    {symbol : Symbol}
    (named : Lexeme.isName symbol.name = true) :
    ∀ part ∈ symbol.parts, ∀ c ∈ part, IsPlain c := by
  have numeral : ∀ c ∈ (Text.hexadecimal 4 symbol.value).toList, IsPlain c := by
    intro c listed
    have digit (width : Nat) (among : c ∈ Text.capitalDigits width symbol.value.natAbs) :
        IsPlain c :=
      .inl (Lexeme.isNameCharacter_of_isHexDigit (Text.isHexDigit_of_mem_capitalDigits among))
    rw [Text.toList_hexadecimal] at listed
    split at listed
    · obtain sign | among := List.mem_cons.mp listed
      · exact .inr (.inl sign)
      · exact digit _ among
    · exact digit _ listed
  have word (kind : Kind) : ∀ c ∈ kind.word.toList, Lexeme.isNameCharacter c = true := by
    rw [← List.all_eq_true]
    cases kind <;> rfl
  simp only [parts, List.forall_mem_cons, List.not_mem_nil, false_imp_iff, implies_true, and_true]
  exact ⟨fun c listed => .inl (Lexeme.isNameCharacter_of_mem_name named c listed),
    fun c listed => .inl (word _ c listed), .inr (.inr rfl), numeral⟩

theorem isPlain_of_mem_line
    {symbol : Symbol}
    (named : Lexeme.isName symbol.name = true) :
    ∀ c ∈ symbol.line.toList, c = ' ' ∨ IsPlain c := by
  intro c listed
  have plain := isPlain_of_mem_parts named
  simp only [parts, List.forall_mem_cons] at plain
  simp only [toList_line, parts, List.intercalate, List.intersperse, List.flatten_cons,
    List.flatten_nil, List.mem_append, List.mem_cons, List.not_mem_nil, or_false] at listed
  grind

/-- A symbol's line is not broken. -/
theorem isLineEnd_of_mem_line
    {symbol : Symbol}
    (named : Lexeme.isName symbol.name = true) :
    ∀ c ∈ symbol.line.toList, Text.isLineEnd c = false := by
  intro c listed
  have plain := isPlain_of_mem_line named c listed
  rw [← Bool.not_eq_true]
  intro ends
  revert plain
  simp only [Text.isLineEnd, Bool.or_eq_true, beq_iff_eq, or_assoc] at ends
  unfold IsPlain
  obtain rfl | rfl | rfl | rfl | rfl | rfl | rfl | rfl | rfl | rfl := ends <;> decide

/-- A symbol's line starts with its name, and no name with a number sign. -/
theorem isRemark_line
    {symbol : Symbol}
    (named : Lexeme.isName symbol.name = true) :
    isRemark symbol.line = false := by
  obtain ⟨c, letters, name_eq, starts, _⟩ := Lexeme.exists_of_isName named
  rw [isRemark, beq_eq_false_iff_ne]
  intro same
  simp only [line, name_eq, String.toList_append, String.toList_ofList, List.cons_append,
    List.head?_cons, Option.some.injEq] at same
  rw [same] at starts
  cases starts

theorem ofWord?_word (kind : Kind) :
    Kind.ofWord? kind.word = some kind := by
  cases kind <;> rfl

/-- A symbol is read from its line. -/
theorem ofLine?_line
    {symbol : Symbol}
    (named : Lexeme.isName symbol.name = true) :
    ofLine? symbol.line.toList = some symbol := by
  have unspaced : ∀ part ∈ symbol.parts, ' ' ∉ part := by
    intro part among listed
    obtain letter | sign | sign := isPlain_of_mem_parts named part among ' ' listed
    · cases letter
    · cases sign
    · cases sign
  have divided : symbol.line.toList.splitOn ' ' = symbol.parts := by
    rw [toList_line]
    exact List.splitOn_intercalate ' ' unspaced (by simp [parts])
  rw [ofLine?, divided, parts]
  simp [ofWord?_word, value?_hexadecimal]

theorem mapM_ofLine?
    {found : List Symbol}
    (named : ∀ symbol ∈ found, Lexeme.isName symbol.name = true) :
    (found.map (·.line.toList)).mapM ofLine? = some found := by
  induction found with
  | nil => rfl
  | cons symbol found hypothesis =>
      rw [List.forall_mem_cons] at named
      rw [List.map_cons, List.mapM_cons, ofLine?_line named.1, hypothesis named.2]
      rfl

end Symbol

/-! ## Rows of a text -/

/-- Rows with a line feed behind each of them. -/
def rowsText (rows : List String) : List Char :=
  rows.flatMap fun row => row.toList ++ ['\n']

theorem toList_intercalate_append
    {rows : List String}
    (nonempty : rows ≠ []) :
    ("\n".intercalate rows ++ "\n").toList = rowsText rows := by
  rw [String.toList_append, String.toList_intercalate, rowsText]
  induction rows with
  | nil => exact absurd rfl nonempty
  | cons row rows hypothesis =>
      cases rows with
      | nil => simp [List.intercalate]
      | cons next rows =>
          rw [List.flatMap_cons, ← hypothesis (by simp)]
          simp [List.intercalate]

/-- Rows without line feeds are found again by splitting at line feeds. -/
theorem splitOn_rowsText
    {rows : List String}
    (unbroken : ∀ row ∈ rows, '\n' ∉ row.toList) :
    (rowsText rows).splitOn '\n' = rows.map (·.toList) ++ [[]] := by
  induction rows with
  | nil => rfl
  | cons row rows hypothesis =>
      rw [List.forall_mem_cons] at unbroken
      rw [rowsText, List.flatMap_cons, List.append_assoc, List.singleton_append,
        List.splitOn_append_cons_self_of_not_mem unbroken.1, ← rowsText, hypothesis unbroken.2]
      rfl

/-- Rows without line ends are the lines on paper. -/
theorem linesFrom_rowsText
    {rows : List String}
    (inside : ∀ row ∈ rows, ∀ c ∈ row.toList, Text.isLineEnd c = false)
    (finished : Array String) :
    Text.linesFrom finished [] (rowsText rows) = finished.toList ++ rows := by
  induction rows generalizing finished with
  | nil => exact (List.append_nil _).symm
  | cons row rows hypothesis =>
      rw [List.forall_mem_cons] at inside
      rw [rowsText, List.flatMap_cons, List.append_assoc, List.singleton_append,
        Text.linesFrom_row inside.1, ← rowsText, hypothesis inside.2]
      simp

/-! ## The text of a symbol file -/

section

variable {constants : List Constant} {labels : Table Int}

theorem toList_text :
    (text constants labels).toList =
      rowsText (heading ++ (symbols constants labels).map (·.line)) := by
  rw [text, toList_intercalate_append]
  simp [heading]

/-- No line of a symbol file is broken. -/
theorem isLineEnd_of_mem_rows
    (named : ∀ symbol ∈ symbols constants labels, Lexeme.isName symbol.name = true) :
    ∀ row ∈ heading ++ (symbols constants labels).map (·.line),
      ∀ c ∈ row.toList, Text.isLineEnd c = false := by
  rw [List.forall_mem_append, List.forall_mem_map]
  refine ⟨?_, fun symbol listed => Symbol.isLineEnd_of_mem_line (named symbol listed)⟩
  have headed : heading.all fun row => row.toList.all fun c => !Text.isLineEnd c := by decide
  simpa using headed

/-- A symbol file has its heading and one line for every symbol. -/
theorem lines_text
    (named : ∀ symbol ∈ symbols constants labels, Lexeme.isName symbol.name = true) :
    Text.lines (text constants labels) = heading ++ (symbols constants labels).map (·.line) := by
  rw [Text.lines, toList_text, linesFrom_rowsText (isLineEnd_of_mem_rows named)]
  rfl

/-- The symbols are read from their file. -/
theorem read?_text
    (named : ∀ symbol ∈ symbols constants labels, Lexeme.isName symbol.name = true) :
    read? (text constants labels) = some (symbols constants labels) := by
  have unbroken : ∀ row ∈ heading ++ (symbols constants labels).map (·.line),
      '\n' ∉ row.toList := by
    intro row among listed
    cases isLineEnd_of_mem_rows named row among '\n' listed
  rw [read?, toList_text, splitOn_rowsText unbroken, List.map_append, List.append_assoc,
    List.drop_left' (by simp), List.dropLast_concat, List.map_map]
  exact Symbol.mapM_ofLine? named

/-- The lines of the heading start with a number sign, and no others do. -/
theorem filter_lines
    (named : ∀ symbol ∈ symbols constants labels, Lexeme.isName symbol.name = true) :
    (Text.lines (text constants labels)).filter isRemark = heading ∧
      (Text.lines (text constants labels)).filter (fun row => !isRemark row) =
        (symbols constants labels).map (·.line) := by
  have headed : ∀ row ∈ heading, isRemark row = true := by decide
  have unheaded : ∀ row ∈ (symbols constants labels).map (·.line), isRemark row = false := by
    rw [List.forall_mem_map]
    exact fun symbol listed => Symbol.isRemark_line (named symbol listed)
  rw [lines_text named, List.filter_append, List.filter_append]
  constructor
  · rw [List.filter_eq_self.mpr headed, List.filter_eq_nil_iff.mpr (by simpa using unheaded),
      List.append_nil]
  · rw [List.filter_eq_nil_iff.mpr (by simpa using headed),
      List.filter_eq_self.mpr (by simpa using unheaded), List.nil_append]

/-- The symbols are read from the lines that hold one. -/
theorem mapM_filter_lines
    (named : ∀ symbol ∈ symbols constants labels, Lexeme.isName symbol.name = true) :
    (((Text.lines (text constants labels)).filter fun row => !isRemark row).map
      (·.toList)).mapM Symbol.ofLine? = some (symbols constants labels) := by
  rw [(filter_lines named).2, List.map_map]
  exact Symbol.mapM_ofLine? named

end

/-! ## Labels by address and name -/

/-- Labels are sorted by address and, at one address, by name. -/
def Precedes (first second : String × Int) : Prop :=
  first.2 < second.2 ∨ first.2 = second.2 ∧ first.1 < second.1

theorem Precedes.asymm
    {first second : String × Int}
    (before : Precedes first second) :
    ¬ Precedes second first := by
  rintro (lower | ⟨same, lower⟩) <;> obtain higher | ⟨again, higher⟩ := before
  · omega
  · omega
  · omega
  · exact String.lt_asymm lower higher

theorem labelBefore_iff (first second : String × Int) :
    labelBefore first second = true ↔
      first.2 < second.2 ∨ first.2 = second.2 ∧ first.1 ≤ second.1 := by
  unfold labelBefore
  split
  · next same => simp [same]
  · next apart => simp [apart]

theorem pairwise_labelBefore (labels : Table Int) :
    (sortedLabels labels).Pairwise fun first second => labelBefore first second = true := by
  apply List.pairwise_mergeSort
  · intro first second third before after
    rw [labelBefore_iff] at before after ⊢
    obtain lower | ⟨same, lower⟩ := before
    · left
      omega
    · obtain higher | ⟨again, higher⟩ := after
      · left
        omega
      · exact .inr ⟨same.trans again, String.le_trans lower higher⟩
  · intro first second
    rw [Bool.or_eq_true, labelBefore_iff, labelBefore_iff]
    obtain lower | same | higher := Int.lt_trichotomy first.2 second.2
    · exact .inl (.inl lower)
    · exact (String.le_total first.1 second.1).imp (fun le => .inr ⟨same, le⟩)
        fun le => .inr ⟨same.symm, le⟩
    · exact .inr (.inl higher)

/-- Sorting keeps the labels. -/
theorem sortedLabels_perm (labels : Table Int) :
    (sortedLabels labels).Perm labels.entries :=
  List.mergeSort_perm ..

/-- Labels of different names are sorted strictly. -/
theorem pairwise_precedes
    {labels : Table Int}
    (distinct : labels.names.Nodup) :
    (sortedLabels labels).Pairwise Precedes := by
  have names : ((sortedLabels labels).map (·.1)).Nodup :=
    ((sortedLabels_perm labels).map _).nodup_iff.mpr distinct
  rw [List.Nodup, List.pairwise_map] at names
  refine ((pairwise_labelBefore labels).and names).imp ?_
  rintro first second ⟨before, other⟩
  rw [labelBefore_iff] at before
  exact before.imp_right (And.imp_right fun le => Std.lt_of_le_of_ne le other)

end SymbolFile

/-! ## The symbols of a source -/

/-- The names that a source declares or refers to are names. -/
theorem Token.isName_of_ofSource
    {source file name : String}
    {tokens : List Token}
    {token : Token}
    (read : ofSource source file = .ok tokens)
    (listed : token ∈ tokens)
    (content : token.content = .symbol name ∨ token.content = .label name) :
    Lexeme.isName name = true := by
  have readable : Readable (tokens.map (·.content)) := Yields.readable ⟨tokens, read, rfl⟩
  obtain ⟨before, admissible⟩ := readable.exists_admissible (List.mem_map_of_mem listed)
  obtain symbol | label := content
  · rw [symbol] at admissible
    exact admissible.2.1
  · rw [label] at admissible
    exact admissible.1

namespace Assembly
namespace Stages

variable {settings : Settings} {tokens : List Token} (stages : Stages settings tokens)

/-- The labels of an assembly are those of the code section, in order. -/
theorem names_labels :
    stages.code.labels.names = Symbols.labelsOf stages.layout.code.tokens := by
  obtain ⟨labels_eq, _⟩ := Code.entriesOf_of_generate stages.generated
  obtain ⟨distinct, _⟩ := (Symbols.validate_eq_ok_iff ..).mp stages.validated
  rw [← stages.labelsOf_resolved] at distinct ⊢
  rw [labels_eq, Address.names_table distinct]

/-- No two symbols of an assembly have the same name. -/
theorem nodup_names :
    (stages.constants.map (·.name) ++ stages.code.labels.names).Nodup := by
  obtain ⟨_, constants⟩ := (Constant.compile_eq_ok_iff ..).mp stages.compiled
  obtain ⟨labels, disjoint, _⟩ := (Symbols.validate_eq_ok_iff ..).mp stages.validated
  rw [stages.names_labels, List.nodup_append]
  refine ⟨constants, labels, fun constant among label declared same => ?_⟩
  exact disjoint label declared (same ▸ among)

/-- The table of an assembly holds the constants and then the labels, in order. -/
theorem entries_symbols :
    stages.assembly.symbols.entries =
      stages.constants.map (fun constant => (constant.name, constant.value)) ++
        stages.code.labels.entries := by
  obtain ⟨constants, labels, disjoint⟩ := List.nodup_append.mp stages.nodup_names
  let values := stages.constants.map fun constant => (constant.name, constant.value)
  have names : values.map (·.1) = stages.constants.map (·.name) := List.map_map
  have free : ∀ name ∈ stages.code.labels.names, (Table.ofList values).get? name = none := by
    intro name label
    rw [Table.get?_ofList_eq_none_iff, names]
    exact fun constant => disjoint name constant name label rfl
  have joined := Table.entries_foldl_insert _ (Table.ofList values) free labels
  rw [Table.entries_ofList (names ▸ constants)] at joined
  exact joined

/-- The symbol file has every symbol once. -/
theorem nodup_names_symbols :
    ((SymbolFile.symbols stages.constants stages.code.labels).map (·.name)).Nodup := by
  have sorted := (SymbolFile.sortedLabels_perm stages.code.labels).map (·.1)
  rw [SymbolFile.symbols, List.map_append, List.map_map, List.map_map]
  exact (sorted.append_left _).nodup_iff.mpr stages.nodup_names

/-- The symbol file taken as a table has under every name what the assembly has there. -/
theorem get?_symbols (name : String) :
    (Table.ofList ((SymbolFile.symbols stages.constants stages.code.labels).map
        fun symbol => (symbol.name, symbol.value))).get? name =
      stages.assembly.symbols.get? name := by
  have names : ((SymbolFile.symbols stages.constants stages.code.labels).map
      fun symbol => (symbol.name, symbol.value)).map (·.1) =
      (SymbolFile.symbols stages.constants stages.code.labels).map (·.name) := List.map_map
  have distinct := names ▸ stages.nodup_names_symbols
  apply Table.get?_eq_of_perm
  · rwa [Table.names, Table.entries_ofList distinct]
  · rw [Table.entries_ofList distinct, stages.entries_symbols, SymbolFile.symbols,
      List.map_append, List.map_map, List.map_map]
    refine List.Perm.append_left _ ?_
    have sorted := SymbolFile.sortedLabels_perm stages.code.labels
    rwa [← List.map_id (SymbolFile.sortedLabels stages.code.labels)] at sorted

/-- The symbols of a source have names. -/
theorem isName_of_mem_symbols
    {source file : String}
    (read : Token.ofSource source file = .ok tokens) :
    ∀ symbol ∈ SymbolFile.symbols stages.constants stages.code.labels,
      Lexeme.isName symbol.name = true := by
  obtain ⟨data, code⟩ := Layout.infix_of_ofTokens stages.divided
  rw [SymbolFile.symbols, List.forall_mem_append, List.forall_mem_map, List.forall_mem_map]
  constructor
  · intro constant declared
    obtain ⟨declarations, _⟩ := (Constant.compile_eq_ok_iff ..).mp stages.compiled
    obtain ⟨token, listed, content⟩ := declarations.exists_symbol constant declared
    exact Token.isName_of_ofSource read (data.subset listed) (.inl content)
  · intro label bound
    have named : label.1 ∈ stages.code.labels.names :=
      List.mem_map_of_mem ((SymbolFile.sortedLabels_perm _).mem_iff.mp bound)
    rw [stages.names_labels, Symbols.mem_labelsOf_iff] at named
    obtain ⟨token, listed, content⟩ := named
    exact Token.isName_of_ofSource read (code.subset listed) (.inr content)

end Stages

/-- The symbol file of an accepted source has a heading of two lines, which alone start with a
number sign. From the other lines the constants are read in order of declaration and then the labels
by address and name, each with its value. No name occurs twice, so the constants and the labels are
disjoint, and under every name stands what the program has there. -/
theorem symbolFile_of_ofSource
    {settings : Settings}
    {source file : String}
    {assembly : Assembly}
    (assembled : ofSource settings source file = .ok assembly) :
    ∃ (labels : List (String × Int)) (found : List SymbolFile.Symbol),
      labels.Perm assembly.labels.entries ∧
      labels.Pairwise SymbolFile.Precedes ∧
      found = assembly.constants.map (fun constant => ⟨constant.name, .constant, constant.value⟩) ++
        labels.map (fun label => ⟨label.1, .label, label.2⟩) ∧
      (Text.lines assembly.symbolFile).filter SymbolFile.isRemark = SymbolFile.heading ∧
      (((Text.lines assembly.symbolFile).filter fun row => !SymbolFile.isRemark row).map
        (·.toList)).mapM SymbolFile.Symbol.ofLine? = some found ∧
      SymbolFile.read? assembly.symbolFile = some found ∧
      (found.map (·.name)).Nodup ∧
      (∀ name, (Table.ofList (found.map fun symbol => (symbol.name, symbol.value))).get? name =
        assembly.symbols.get? name) ∧
      (∀ name ∈ assembly.labels.names, name ∉ assembly.constants.map (·.name)) := by
  obtain ⟨tokens, read, stages, rfl⟩ := (ofSource_eq_ok_iff ..).mp assembled
  have named := stages.isName_of_mem_symbols read
  obtain ⟨_, labels, disjoint⟩ := List.nodup_append.mp stages.nodup_names
  exact ⟨SymbolFile.sortedLabels stages.code.labels, _, SymbolFile.sortedLabels_perm _,
    SymbolFile.pairwise_precedes labels, rfl, (SymbolFile.filter_lines named).1,
    SymbolFile.mapM_filter_lines named, SymbolFile.read?_text named, stages.nodup_names_symbols,
    stages.get?_symbols, fun name label constant => disjoint name constant name label rfl⟩

/-- A source whose labels are not declared in the order of the symbol file. -/
def unsortedLabels : String :=
  ".data\nlimit NUM -1\nmark CHR 'x'\n.code\nzeta:\nmain: JMP far\nfar: HALT\n"

/-- Two labels at one address stand in the order of their names. -/
theorem symbolFile_of_unsortedLabels :
    ∃ assembly, ofSource {} unsortedLabels = .ok assembly ∧
      assembly.labels.names = ["zeta", "main", "far"] ∧
      SymbolFile.read? assembly.symbolFile = some [
        ⟨"limit", .constant, 32767⟩, ⟨"mark", .constant, 120⟩,
        ⟨"main", .label, 0⟩, ⟨"zeta", .label, 0⟩, ⟨"far", .label, 2⟩] := by
  let assembly : Assembly := {
    words := [6, 2, 0, 0, 0]
    constants := [{ name := "limit", value := 32767, line := 2 },
      { name := "mark", value := 120, line := 3 }]
    labels := ⟨[("zeta", 0), ("main", 0), ("far", 2)]⟩
    entries := [⟨0, 6, "JMP", [6, 2]⟩, ⟨2, 7, "HALT", [0]⟩]
    sourceLines := [".data", "limit NUM -1", "mark CHR 'x'", ".code", "zeta:", "main: JMP far",
      "far: HALT"] }
  have assembled : ofSource {} unsortedLabels = .ok assembly := by decide +kernel
  obtain ⟨labels, found, perm, sorted, rfl, _, _, read, _⟩ := symbolFile_of_ofSource assembled
  have ordered : [("main", 0), ("zeta", 0), ("far", 2)].Pairwise SymbolFile.Precedes := by
    unfold SymbolFile.Precedes
    decide
  have labels_eq : labels = [("main", 0), ("zeta", 0), ("far", 2)] :=
    (perm.trans (by decide)).eq_of_pairwise
      (fun _ _ _ _ before after => absurd after before.asymm) sorted ordered
  exact ⟨assembly, assembled, rfl, by rw [read, labels_eq]; rfl⟩

end Assembly
end WordAsm
