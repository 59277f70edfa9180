import FitzDestroyer.Metrics.Prometheus

/-!
# The text format of metrics

A text has comments, empty lines and samples.  A sample has a name, labels whose values are quoted,
a value and perhaps a timestamp, with blanks between them.

* `Label`, `Labels`, `Sample`, `Line` : what is written, with `text` : how it is written;
* `ParseFloat` : how the value of a sample is read;
* `exposition` : the text of lines;
* `sum` : the sum of the finite values of a metric.
-/

namespace FitzDestroyer

namespace Metrics

open Js

/-! ### Tokens -/

/-- Blanks and tabs. -/
abbrev Blanks := { cs : List Char // ∀ c ∈ cs, c = ' ' ∨ c = '\t' }

/-- What blanks separate. -/
def Token (cs : List Char) : Prop := cs ≠ [] ∧ ∀ c ∈ cs, isSpace c = false

def isMetricName (name : List Char) : Bool :=
  (name.head?.any fun c => c.isAlpha || c == '_' || c == ':') &&
    name.all fun c => c.isAlphanum || c == '_' || c == ':'

def isLabelName (name : List Char) : Bool :=
  (name.head?.any fun c => c.isAlpha || c == '_') && name.all fun c => c.isAlphanum || c == '_'

def isInteger (text : List Char) : Bool :=
  let digits := if text.head? = some '+' ∨ text.head? = some '-' then text.tail else text
  digits ≠ [] && digits.all Char.isDigit

/-- `strconv.ParseFloat`, which the format names for the values of samples.  Numbers that JavaScript
reads too are read alike. -/
structure ParseFloat where
  read : List Char → Option Number
  token : ∀ {text value}, read text = some value → Token text
  plain : ∀ {text value}, plainNumber text = true → read text = some value →
    value = Number.ofText text

/-! ### Labels -/

/-- How a symbol is written in a quoted value. -/
def escape (c : Char) : List Char :=
  if c = '\\' then ['\\', '\\'] else if c = '"' then ['\\', '"']
  else if c = '\n' then ['\\', 'n'] else [c]

structure Label where
  beforeName : Blanks
  name : List Char
  name_eq : isLabelName name = true
  afterName : Blanks
  beforeValue : Blanks
  value : List Char
  afterValue : Blanks

def Label.start (label : Label) : List Char :=
  label.beforeName.1 ++ label.name ++ label.afterName.1 ++ ['='] ++ label.beforeValue.1 ++ ['"']

def Label.text (label : Label) : List Char :=
  label.start ++ label.value.flatMap escape ++ '"' :: label.afterValue.1

/-- Labels, perhaps with a comma after the last one. -/
structure Labels where
  labels : List Label
  comma : Bool
  comma_labels : comma = true → labels ≠ []
  blanks : Blanks

def Labels.body (l : Labels) : List Char :=
  [','].intercalate (l.labels.map Label.text) ++ (if l.comma then [','] else []) ++ l.blanks.1

/-! ### Samples -/

structure Sample (floats : ParseFloat) where
  before : Blanks
  name : List Char
  name_eq : isMetricName name = true
  /-- The labels, with the blanks before them. -/
  labels : Option (Blanks × Labels)
  beforeValue : Blanks
  /-- Only the brace of labels separates a name from a value without blanks. -/
  beforeValue_ne : labels = none → beforeValue.1 ≠ []
  number : List Char
  value : Number
  read_number : floats.read number = some value
  /-- The timestamp, with the blanks before it. -/
  timestamp : Option (Blanks × List Char)
  timestamp_eq : ∀ p ∈ timestamp, p.1.1 ≠ [] ∧ isInteger p.2 = true
  after : Blanks

namespace Sample

variable {floats : ParseFloat}

def labelsText (s : Sample floats) : List Char :=
  s.labels.elim [] fun p => p.1.1 ++ '{' :: p.2.body ++ ['}']

def timestampText (s : Sample floats) : List Char := s.timestamp.elim [] fun p => p.1.1 ++ p.2

/-- The sample after its name. -/
def rest (s : Sample floats) : List Char :=
  s.labelsText ++ (s.beforeValue.1 ++ (s.number ++ s.timestampText))

def text (s : Sample floats) : List Char := s.before.1 ++ (s.name ++ s.rest) ++ s.after.1

/-- **What is read of samples**: the value has no sign but `-`, no point at its end and no letters
but an exponent, there is no timestamp, and the labels directly follow the name, are followed by a
blank, and have no `}` in their values. -/
def Plain (s : Sample floats) : Prop :=
  plainNumber s.number = true ∧ s.timestamp = none ∧ ∀ p ∈ s.labels, p.1.1 = [] ∧
    s.beforeValue.1 ≠ [] ∧ ∀ label ∈ p.2.labels, '}' ∉ label.value

instance (s : Sample floats) : Decidable s.Plain := inferInstanceAs (Decidable (_ ∧ _ ∧ _))

end Sample

/-! ### Lines -/

inductive Line (floats : ParseFloat) where
  | empty (blanks : Blanks)
  /-- A comment, such as `# HELP ..` and `# TYPE ..`. -/
  | comment (before : Blanks) (words : List Char) (oneLine : '\n' ∉ words)
  | sample (s : Sample floats)

variable {floats : ParseFloat}

def Line.text : Line floats → List Char
  | empty blanks => blanks.1
  | comment before words _ => before.1 ++ '#' :: words
  | sample s => s.text

/-- The text of lines.  An empty line after the last one ends it. -/
def exposition (lines : List (Line floats)) : String :=
  String.ofList (['\n'].intercalate (lines.map Line.text))

def Line.sample? : Line floats → Option (Sample floats)
  | sample s => some s
  | _ => none

/-- The samples of a metric whose values are finite. -/
def samplesOf (lines : List (Line floats)) (name : String) : List (Sample floats) :=
  (lines.filterMap Line.sample?).filter fun s =>
    String.ofList s.name = name ∧ s.value.isFinite = true

def sum (samples : List (Sample floats)) : Number :=
  (samples.map Sample.value).foldl Number.add (0 : ℕ)

end Metrics

end FitzDestroyer
