import Mathlib.Data.List.Basic

/-! Tables as comma-separated text: minimal quoting and the reader that inverts it.

A field is quoted where it holds the separator, a quote or a character of a line end, and a quote inside
it is doubled.  The reader goes through the text once and keeps only where in a field it stands.
-/
namespace TransactionMonitoring.Csv

/-! ## The writer -/

def special (c : Char) : Bool := c = ',' || c = '"' || c = '\r' || c = '\n'

def doubled : List Char → List Char
  | [] => []
  | c :: rest => if c = '"' then '"' :: '"' :: doubled rest else c :: doubled rest

def quoted (text : List Char) : List Char := '"' :: doubled text ++ ['"']

def field (value : String) : List Char :=
  if value.toList.any special then quoted value.toList else value.toList

/-- The fields of a record, each behind the separator but the first. -/
def joined : List String → List Char
  | [] => []
  | [value] => field value
  | value :: rest => field value ++ ',' :: joined rest

/-- One record and its line end; a record of one empty field is quoted, so as not to be a blank line. -/
def record (values : List String) : List Char :=
  (if values = [""] then quoted [] else joined values) ++ ['\r', '\n']

def write (records : List (List String)) : String := String.ofList (records.flatMap record)

/-! ## The reader -/

/-- Where in a field the reader stands: at its first character, in it, between its quotes, behind a quote
that may close it, or behind a carriage return. -/
inductive Mode where
  | start | plain | inside | quote | return
deriving DecidableEq, Repr

structure Reader where
  mode : Mode
  text : List Char
  fields : List String
  records : List (List String)
deriving DecidableEq, Repr

namespace Reader

def fresh (fields : List String) (records : List (List String)) : Reader := ⟨.start, [], fields, records⟩

def endField (reader : Reader) : Reader :=
  fresh (reader.fields ++ [String.ofList reader.text]) reader.records

def endRecord (reader : Reader) : Reader :=
  fresh [] (reader.records ++ [reader.fields ++ [String.ofList reader.text]])

def push (reader : Reader) (mode : Mode) (c : Char) : Reader :=
  { reader with mode := mode, text := reader.text ++ [c] }

/-- A character outside quotes. -/
def outside (reader : Reader) (c : Char) : Reader :=
  if c = ',' then reader.endField
  else if c = '\r' then { reader with mode := .return }
  else if c = '\n' then reader.endRecord
  else reader.push .plain c

def step (reader : Reader) (c : Char) : Reader :=
  match reader.mode with
  | .start => if c = '"' then { reader with mode := .inside } else reader.outside c
  | .plain => reader.outside c
  | .inside => if c = '"' then { reader with mode := .quote } else reader.push .inside c
  | .quote => if c = '"' then reader.push .inside c else reader.outside c
  | .return => if c = '\n' then reader.endRecord else (reader.push .plain '\r').outside c

/-- The records at the end of the text; a last one may lack its line end. -/
def finish (reader : Reader) : List (List String) :=
  if reader.mode = .start ∧ reader.fields = [] then reader.records
  else reader.records ++ [reader.fields ++ [String.ofList reader.text]]

end Reader

open Reader

def read (text : String) : List (List String) := (text.toList.foldl step (fresh [] [])).finish

/-- The records under the header's names. -/
def readWithHeader (text : String) : List (List (String × String)) :=
  match read text with
  | [] => []
  | header :: records => records.map header.zip

/-! ## Reading what was written -/

/-- The reader has read a whole field, and nothing else has changed. -/
structure Holds (fields : List String) (records : List (List String)) (text : List Char) (reader : Reader) : Prop where
  mode : reader.mode = .start ∨ reader.mode = .plain ∨ reader.mode = .quote
  text_eq : reader.text = text
  fields_eq : reader.fields = fields
  records_eq : reader.records = records

variable {fields : List String} {records : List (List String)}

theorem holds_comma {text : List Char} {reader : Reader} (holds : Holds fields records text reader) :
    reader.step ',' = fresh (fields ++ [String.ofList text]) records := by
  obtain ⟨mode, rfl, rfl, rfl⟩ := holds
  rcases mode with mode | mode | mode <;> simp [step, mode, outside, endField]

theorem holds_lineEnd {text : List Char} {reader : Reader} (holds : Holds fields records text reader) :
    (reader.step '\r').step '\n' = fresh [] (records ++ [fields ++ [String.ofList text]]) := by
  obtain ⟨mode, rfl, rfl, rfl⟩ := holds
  have returned : reader.step '\r' = { reader with mode := .return } := by
    rcases mode with mode | mode | mode <;> simp [step, mode, outside]
  rw [returned]
  simp [step, endRecord]

theorem read_plain {text : List Char} (clear : text.any special = false) (before : List Char) {mode : Mode}
    (outer : mode = .start ∧ before = [] ∨ mode = .plain) :
    Holds fields records (before ++ text) (text.foldl step ⟨mode, before, fields, records⟩) := by
  induction text generalizing before mode with
  | nil =>
    refine ⟨?_, by simp, rfl, rfl⟩
    rcases outer with ⟨rfl, -⟩ | rfl
    · exact .inl rfl
    · exact .inr (.inl rfl)
  | cons c rest ih =>
    simp only [List.any_cons, Bool.or_eq_false_iff, special, decide_eq_false_iff_not] at clear
    obtain ⟨⟨⟨⟨notComma, notQuote⟩, notReturn⟩, notLine⟩, clear⟩ := clear
    have pushed : step ⟨mode, before, fields, records⟩ c = ⟨.plain, before ++ [c], fields, records⟩ := by
      rcases outer with ⟨rfl, -⟩ | rfl <;> simp [step, outside, push, notComma, notQuote, notReturn, notLine]
    rw [List.foldl_cons, pushed, List.append_cons]
    exact ih clear _ (.inr rfl)

theorem read_doubled (text before : List Char) :
    (doubled text).foldl step ⟨.inside, before, fields, records⟩ = ⟨.inside, before ++ text, fields, records⟩ := by
  induction text generalizing before with
  | nil => simp [doubled]
  | cons c rest ih =>
    rw [doubled, List.append_cons]
    by_cases isQuote : c = '"'
    · rw [if_pos isQuote, isQuote]
      exact ih _
    · rw [if_neg isQuote, List.foldl_cons]
      have pushed : step ⟨.inside, before, fields, records⟩ c = ⟨.inside, before ++ [c], fields, records⟩ := by
        simp [step, push, isQuote]
      rw [pushed]
      exact ih _

theorem read_quoted (text : List Char) :
    Holds fields records text ((quoted text).foldl step (fresh fields records)) := by
  have opened : step (fresh fields records) '"' = ⟨.inside, [], fields, records⟩ := rfl
  rw [quoted, List.cons_append, List.foldl_cons, opened, List.foldl_append, read_doubled]
  exact ⟨.inr (.inr rfl), rfl, rfl, rfl⟩

theorem read_field (value : String) :
    Holds fields records value.toList ((field value).foldl step (fresh fields records)) := by
  rw [field]
  split
  · exact read_quoted _
  · rename_i clear
    exact read_plain (Bool.eq_false_iff.mpr clear) [] (.inl ⟨rfl, rfl⟩)

/-- The fields of a record, up to its line end. -/
theorem read_joined {values : List String} (nonempty : values ≠ []) :
    ((joined values ++ ['\r', '\n']).foldl step (fresh fields records)) =
      fresh [] (records ++ [fields ++ values]) := by
  induction values generalizing fields with
  | nil => exact absurd rfl nonempty
  | cons value rest ih =>
    have whole : Holds fields records value.toList ((field value).foldl step (fresh fields records)) := read_field value
    cases rest with
    | nil =>
      rw [joined, List.foldl_append, List.foldl_cons, List.foldl_cons, holds_lineEnd whole, String.ofList_toList]
      rfl
    | cons next rest =>
      rw [joined, List.append_assoc, List.foldl_append, List.cons_append, List.foldl_cons, holds_comma whole,
        String.ofList_toList, ih (List.cons_ne_nil _ _), List.append_assoc, List.singleton_append]
      simp

theorem read_record {values : List String} (nonempty : values ≠ []) :
    (record values).foldl step (fresh [] records) = fresh [] (records ++ [values]) := by
  rw [record]
  split
  · rename_i blank
    rw [List.foldl_append, List.foldl_cons, List.foldl_cons, holds_lineEnd (read_quoted []), blank]
    rfl
  · rw [read_joined nonempty, List.nil_append]

theorem read_records {written : List (List String)} (nonempty : ∀ values ∈ written, values ≠ []) :
    (written.flatMap record).foldl step (fresh [] records) = fresh [] (records ++ written) := by
  induction written generalizing records with
  | nil => simp
  | cons values rest ih =>
    rw [List.flatMap_cons, List.foldl_append, read_record (nonempty values List.mem_cons_self),
      ih fun later member => nonempty later (List.mem_cons_of_mem _ member), List.append_assoc,
      List.singleton_append]

/-- What was written is read back, whatever the fields hold. -/
theorem read_write {written : List (List String)} (nonempty : ∀ values ∈ written, values ≠ []) :
    read (write written) = written := by
  rw [read, write, String.toList_ofList, read_records nonempty]
  rfl

theorem readWithHeader_write {header : List String} {written : List (List String)} (named : header ≠ [])
    (nonempty : ∀ values ∈ written, values ≠ []) :
    readWithHeader (write (header :: written)) = written.map header.zip := by
  rw [readWithHeader, read_write (List.forall_mem_cons.mpr ⟨named, nonempty⟩)]

end TransactionMonitoring.Csv
