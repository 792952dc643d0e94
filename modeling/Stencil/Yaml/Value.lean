import Stencil.Number.Double
import Stencil.Text.Blank
import Stencil.Text.Digit
import Stencil.Text.Quoted
import Stencil.Yaml.Node

/-!
# Values

What a YAML text stands for. The tag of a node decides how it is read: only the tags of the language
are known, and a scalar must have the form that its tag asks for.

A text can have several faults. Its nodes are read row by row: first the outermost, then all that
stand in it, then all that stand in those. The fault that counts is the first of the first row that
has one.
-/

namespace Stencil.Yaml

/-- A value. -/
inductive Value where
  | null
  | bool (b : Bool)
  | int (n : Int)
  | float (x : Float)
  | text (s : String)
  | bytes (bs : List UInt8)
  | timestamp (t : Timestamp)
  | sequence (items : List Value)
  | mapping (entries : List (Value × Value))
  | set (members : List Value)
  /-- A collection within itself. -/
  | loop (isMapping : Bool)
  deriving Inhabited

namespace Value

/-- Values that count as an empty document. -/
def isVoid : Value → Bool
  | .null => true
  | .bool b => !b
  | .int n => n == 0
  | .float x => x == 0
  | .text s => s.isEmpty
  | .bytes bs => bs.isEmpty
  | .timestamp _ => false
  | .sequence items => items.isEmpty
  | .mapping entries => entries.isEmpty
  | .set members => members.isEmpty
  | .loop _ => false

/-- The number that a value is; the truth values are one and zero. -/
def whole? : Value → Option Int
  | .bool b => some (if b then 1 else 0)
  | .int n => some n
  | .float x => Double.toInt? x
  | _ => none

/-- Are two values the same key? Numbers are compared by value, whatever their kind. -/
def sameKey (a b : Value) : Bool :=
  match a.whole?, b.whole? with
  | some m, some n => m == n
  | _, _ =>
    match a, b with
    | .null, .null => true
    | .float x, .float y => x == y
    | .text s, .text t => s == t
    | .bytes s, .bytes t => s == t
    | .timestamp s, .timestamp t => s == t
    | _, _ => false

/-- Sets the value of a key. A key keeps its first place and spelling. -/
def setKey (k v : Value) : List (Value × Value) → List (Value × Value)
  | [] => [(k, v)]
  | (k', v') :: rest => if sameKey k' k then (k', v) :: rest else (k', v') :: setKey k v rest

end Value

/-- The minutes of an offset with their sign. -/
def Offset.total (o : Offset) : Int :=
  let m : Int := o.hours * 60 + o.minutes
  if o.negative then -m else m

/-- The text of an offset: days, which may be negative, and seconds on top of them. -/
def Offset.text (o : Offset) : String :=
  let days := o.total / (24 * 60)
  let seconds := o.total % (24 * 60) * 60
  let parts := (if days == 0 then [] else ["days=" ++ toString days]) ++
    (if seconds == 0 then [] else ["seconds=" ++ toString seconds])
  "datetime.timedelta(" ++ (if parts.isEmpty then "0" else Text.joinWith ", " parts) ++ ")"

/-- The text of a zone, if it is known. -/
def Zone.text? : Zone → Option String
  | .unknown => none
  | .universal => some "datetime.timezone.utc"
  | .offset o =>
    some (if o.total == 0 then "datetime.timezone.utc" else "datetime.timezone(" ++ o.text ++ ")")

/-- The text of a date, with its time of day or not. Seconds and their fraction are left out where
they are zero. -/
def Timestamp.text (t : Timestamp) : String :=
  let list (ns : List Nat) : String := Text.joinWith ", " (ns.map toString)
  match t.time with
  | none => "datetime.date(" ++ list [t.year, t.month, t.day] ++ ")"
  | some time =>
    let fine :=
      if time.fraction != 0 then [time.second, time.fraction]
      else if time.second != 0 then [time.second]
      else []
    let zone := (time.zone.text?.map (", tzinfo=" ++ ·)).getD ""
    "datetime.datetime(" ++ list ([t.year, t.month, t.day, time.hour, time.minute] ++ fine) ++
      zone ++ ")"

/-- The text of a key in a report. -/
def Value.keyText : Value → String
  | .null => "None"
  | .bool b => if b then "1" else "0"
  | .int n => toString n
  | .float x => Double.text x
  | .text s => s
  | .bytes bs => "b" ++ Text.quoted (String.ofList (bs.map fun b => Char.ofNat b.toNat))
  | .timestamp t => t.text
  | .sequence _ | .mapping _ | .set _ | .loop _ => ""

/-- The sentence that tells what is wrong with a text. -/
def Fault.message : Fault → String
  | .malformed => "not a YAML document"
  | .badNumber message => message
  | .hugeCode => "Python int too large to convert to C int"
  | .hugeUnit => "int too large to convert to float"
  | .emptyNumber => "string index out of range"
  | .unknownTruth word => Text.quoted word
  | .notDate => "'NoneType' object has no attribute 'groupdict'"
  | .notText => "expected string or bytes-like object, got 'list'"

namespace Scalar

/-- A digit of any script stands for the plain one, and white space for a blank. -/
def plainChar (c : Char) : Char :=
  match Text.decimalDigit? c with
  | some d => Char.ofNat ('0'.toNat + d)
  | none => if Text.isSpace c then ' ' else c

/-- The characters of a number without the white space around it. -/
def plainChars (s : List Char) : List Char :=
  Text.trimWhile (· == ' ') (s.map plainChar)

/-- The value of a digit in some base up to sixteen. -/
def digit? (base : Nat) (c : Char) : Option Nat :=
  let n :=
    if isDecimal c then c.toNat - '0'.toNat
    else if isHex c then c.toLower.toNat - 'a'.toNat + 10
    else 16
  if n < base then some n else none

/-- The value of a row of digits, at least one. -/
def digits? (base : Nat) (cs : List Char) : Option Nat :=
  if cs.isEmpty then none
  else cs.foldlM (fun n c => (digit? base c).map (base * n + ·)) 0

/-- The letter that marks a base. -/
def baseMark? (base : Nat) : Option Char :=
  [(2, 'b'), (8, 'o'), (16, 'x')].lookup base

/-- A mark of the base before the digits does not count. -/
def dropBase (base : Nat) : List Char → List Char
  | '0' :: c :: rest => if baseMark? base == some c.toLower then rest else '0' :: c :: rest
  | cs => cs

/-- Reads a whole number, with blanks around it and a sign. A report shows the start of the text
only. -/
def wholeIn (base : Nat) (s : List Char) : Except Fault Int :=
  let cs := plainChars s
  let negative := cs.head? == some '-'
  let body := dropBase base (Spelling.dropSign cs)
  match digits? base body with
  | none =>
    .error (.badNumber (s!"invalid literal for int() with base {base}: " ++
      String.ofList ((Text.quoted (String.ofList s)).toList.take 200)))
  | some n =>
    if base == 10 && body.length > mostDigits then .error (.tooLong body.length)
    else .ok (if negative then -n else n)

/-- Adds up parts in sixties, the last being the units. -/
def sixties (parts : List Int) : Int :=
  parts.foldl (fun n p => 60 * n + p) 0

/-- Reads an integer. -/
def int (s : String) : Except Fault Int :=
  let cs := s.toList.filter (· != '_')
  match cs with
  | [] => .error .emptyNumber
  | c :: _ =>
    let sign : Int := if c == '-' then -1 else 1
    match Spelling.dropSign cs with
    | ['0'] => .ok 0
    | '0' :: 'b' :: rest => (wholeIn 2 rest).map (sign * ·)
    | '0' :: 'x' :: rest => (wholeIn 16 rest).map (sign * ·)
    | '0' :: rest => (wholeIn 8 ('0' :: rest)).map (sign * ·)
    | [] => .error .emptyNumber
    | body =>
      if body.contains ':' then
        ((body.splitOn ':').mapM (wholeIn 10)).map fun ps => sign * sixties ps
      else (wholeIn 10 body).map (sign * ·)

/-- Reads the exponent of a number: nothing, or a mark, a sign and digits. -/
def exponent? : List Char → Option Int
  | [] => some 0
  | 'e' :: rest =>
    (digits? 10 (Spelling.dropSign rest)).map fun n => if rest.head? == some '-' then -n else n
  | _ => none

/-- Reads a floating point number in small letters, with blanks around it and a sign. -/
def decimal? (s : List Char) : Option Float :=
  let cs := plainChars s
  let negative := cs.head? == some '-'
  let body := Spelling.dropSign cs
  let word := String.ofList body
  if word == "inf" || word == "infinity" then some (if negative then -1 / 0 else 1 / 0)
  else if word == "nan" then some (0 / 0)
  else
    let whole := body.takeWhile isDecimal
    let rest := body.dropWhile isDecimal
    let (fraction, rest) :=
      match rest with
      | '.' :: more => (more.takeWhile isDecimal, more.dropWhile isDecimal)
      | rest => ([], rest)
    if whole.isEmpty && fraction.isEmpty then none
    else
      (exponent? rest).map fun e =>
        Double.ofDecimal negative (decimalValue (whole ++ fraction)) (e - fraction.length)

/-- Reads a decimal fraction. -/
def decimal (s : List Char) : Except Fault Float :=
  match decimal? s with
  | some x => .ok x
  | none =>
    .error (.badNumber ("could not convert string to float: " ++ Text.quoted (String.ofList s)))

/-- Adds up parts in sixties from the units on. -/
def floatSixties (unit : Nat) (sum : Float) : List Float → Float
  | [] => sum
  | p :: rest => floatSixties (unit * 60) (sum + p * Double.ofNat unit) rest

/-- The most parts in sixties: one more, and its unit is no double. -/
def mostSixties : Nat := 174

/-- Reads a floating point number. -/
def float (s : String) : Except Fault Float :=
  let cs := (s.toList.filter (· != '_')).map Char.toLower
  match cs with
  | [] => .error .emptyNumber
  | c :: _ =>
    let sign : Float := if c == '-' then -1 else 1
    let body := Spelling.dropSign cs
    if body == ".inf".toList then .ok (sign * (1 / 0))
    else if body == ".nan".toList then .ok (0 / 0)
    else if body.contains ':' then
      match (body.splitOn ':').mapM decimal with
      | .error f => .error f
      | .ok ps =>
        if ps.length > mostSixties then .error .hugeUnit
        else .ok (sign * floatSixties 1 0 ps.reverse)
    else (decimal body).map (sign * ·)

/-- Reads a truth value. -/
def bool (s : String) : Except Fault Bool :=
  let word := s.map Char.toLower
  match Spelling.truthWords.lookup word with
  | some b => .ok b
  | none => .error (.unknownTruth word)

/-- The value of a base64 digit. -/
def sextet? (c : Char) : Option Nat :=
  if 'A' ≤ c && c ≤ 'Z' then some (c.toNat - 'A'.toNat)
  else if 'a' ≤ c && c ≤ 'z' then some (c.toNat - 'a'.toNat + 26)
  else if isDecimal c then some (c.toNat - '0'.toNat + 52)
  else if c == '+' then some 62
  else if c == '/' then some 63
  else none

/-- Reads base64 digits. `count` digits of the current group are known and `bits` are left of them;
`pads` counts the padding just seen. Other characters are passed over, and full padding ends the
text. -/
def sextets (count bits pads : Nat) : List Char → Option (List UInt8)
  | [] => if count == 0 then some [] else none
  | c :: cs =>
    if c == '=' then
      if 2 ≤ count && 4 ≤ count + pads + 1 then some []
      else sextets count bits (if 2 ≤ count then pads + 1 else pads) cs
    else
      match sextet? c with
      | none => sextets count bits pads cs
      | some v =>
        if count == 0 then sextets 1 v 0 cs
        else
          let all := 64 * bits + v
          let left := 6 - 2 * count
          (sextets ((count + 1) % 4) (all % Nat.pow 2 left) 0 cs).map
            (UInt8.ofNat (all / Nat.pow 2 left) :: ·)

/-- Reads bytes that are written to base 64. -/
def bytes (s : String) : Except Fault (List UInt8) :=
  if s.toList.all fun c => c.toNat < 128 then
    match sextets 0 0 0 s.toList with
    | some bs => .ok bs
    | none => .error .malformed
  else .error .malformed

/-- Does the year have a leap day? -/
def isLeapYear (y : Nat) : Bool :=
  y % 4 == 0 && (y % 100 != 0 || y % 400 == 0)

/-- The number of days in a month. -/
def daysIn (y m : Nat) : Nat :=
  if m == 2 then if isLeapYear y then 29 else 28
  else if [4, 6, 9, 11].contains m then 30
  else 31

/-- What is out of range in a date or a time of day. -/
def rangeFault? (t : Timestamp) : Option String :=
  let ofDate : Option String :=
    if t.year == 0 then some "year 0 is out of range"
    else if t.month == 0 || 12 < t.month then some "month must be in 1..12"
    else if t.day == 0 || daysIn t.year t.month < t.day then some "day is out of range for month"
    else none
  match t.time with
  | none => ofDate
  | some time =>
    let ofZone : Option String :=
      match time.zone with
      | .offset o =>
        if o.hours * 60 + o.minutes < 24 * 60 then none
        else
          some ("offset must be a timedelta strictly between -timedelta(hours=24) and " ++
            "timedelta(hours=24), not " ++ o.text ++ ".")
      | _ => none
    let ofTime : Option String :=
      if 23 < time.hour then some "hour must be in 0..23"
      else if 59 < time.minute then some "minute must be in 0..59"
      else if 59 < time.second then some "second must be in 0..59"
      else none
    (ofZone.or ofDate).or ofTime

/-- Reads a point in time. -/
def timestamp (s : String) : Except Fault Timestamp :=
  match Timestamp.read? s with
  | none => .error .notDate
  | some t =>
    match rangeFault? t with
    | some message => .error (.badNumber message)
    | none => .ok t

end Scalar

/-- Reads the text of a scalar by the name of its tag. -/
def Scalar.value (name s : String) : Except Fault Value :=
  match name with
  | "null" => .ok .null
  | "bool" => (Scalar.bool s).map .bool
  | "int" => (Scalar.int s).map .int
  | "float" => (Scalar.float s).map .float
  | "binary" => (Scalar.bytes s).map .bytes
  | "timestamp" => (Scalar.timestamp s).map .timestamp
  | "str" => .ok (.text s)
  | _ => .error .malformed

namespace Node

/-- The tag of the node. -/
def tag : Node → String
  | .scalar t _ => t
  | .sequence t _ => t
  | .mapping t _ => t
  | .loop isMapping => coreTag (if isMapping then "map" else "seq")

/-- The name of a tag that the language defines. -/
def tagName? (n : Node) : Option String :=
  (Text.dropStart? coreStart.toList n.tag.toList).map String.ofList

/-- The node with another tag. -/
def retag (t : String) : Node → Node
  | .scalar _ s => .scalar t s
  | .sequence _ items => .sequence t items
  | .mapping _ entries => .mapping t entries
  | .loop isMapping => .loop isMapping

mutual

/-- The number of levels of a node. -/
def depth : Node → Nat
  | .scalar _ _ => 1
  | .sequence _ items => itemsDepth items + 1
  | .mapping _ entries => entriesDepth entries + 1
  | .loop _ => 1

/-- The number of levels of items. -/
def itemsDepth : List Node → Nat
  | [] => 0
  | n :: ns => max n.depth (itemsDepth ns)

/-- The number of levels of entries. -/
def entriesDepth : List (Node × Node) → Nat
  | [] => 0
  | e :: es => max (entryDepth e) (entriesDepth es)

/-- The number of levels of an entry. -/
def entryDepth : Node × Node → Nat
  | (k, v) => max k.depth v.depth

end

/-- The text of a node that is read as a scalar. A mapping has the text of its value key. -/
def textWithin : Nat → Node → Option String
  | _, .scalar _ s => some s
  | fuel + 1, .mapping _ entries =>
    match entries.find? fun (k, _) => k.tag == coreTag "value" with
    | some (_, v) => textWithin fuel v
    | none => none
  | _, _ => none

/-- The text of the node, if it has one. -/
def text? (n : Node) : Option String :=
  n.textWithin n.depth

/-- The entries that a merge key brings in. Of several mappings the first wins, so it comes last. -/
def mergedEntries (flatten : List (Node × Node) → Option (List (Node × Node))) :
    Node → Option (List (Node × Node))
  | .mapping _ entries => flatten entries
  | .loop true => some []
  | .sequence _ items => do
    let parts ← items.mapM fun n =>
      match n with
      | .mapping _ entries => flatten entries
      | .loop true => some []
      | _ => none
    return parts.reverse.flatten
  | _ => none

/-- The entries of a mapping with those that its merge keys bring in before them. -/
def flatten : Nat → List (Node × Node) → Option (List (Node × Node))
  | 0, entries => some entries
  | fuel + 1, entries => do
    let isMerge (e : Node × Node) : Bool := e.1.tag == coreTag "merge"
    let merged ← (entries.filter isMerge).mapM fun e => mergedEntries (flatten fuel) e.2
    return merged.flatten ++ entries.filter fun e => !isMerge e

/-- A value key is a text. -/
def asKey (n : Node) : Node :=
  if n.tag == coreTag "value" then n.retag (coreTag "str") else n

/-- What a node is by its tag. -/
inductive Content where
  | scalar (r : Except Fault Value)
  | items (ns : List Node)
  | entries (es : List (Node × Node))
  | members (es : List (Node × Node))
  | pairs (ns : List Node)
  | loop (isMapping : Bool)
  /-- The tag asks for another kind of collection. -/
  | misfit

/-- The value of a node that is read as a scalar. No date stands in a mapping. -/
def scalarValue (n : Node) (name : String) : Except Fault Value :=
  match n.text? with
  | none => .error .malformed
  | some s =>
    match n with
    | .mapping _ _ => if name == "timestamp" then .error .notText else Scalar.value name s
    | _ => Scalar.value name s

/-- The content of a sequence. -/
def ofItems (wrap : List Node → Content) : Node → Content
  | .sequence _ items => wrap items
  | _ => .misfit

/-- The content of a mapping. -/
def ofEntries (wrap : List (Node × Node) → Content) : Node → Content
  | .mapping t entries =>
    match flatten (Node.mapping t entries).depth entries with
    | some es => wrap es
    | none => .misfit
  | _ => .misfit

/-- What a node is by its tag. Only tags of the language are known. -/
def content (n : Node) : Content :=
  match n with
  | .loop isMapping => .loop isMapping
  | n =>
    match n.tagName? with
    | some "seq" => n.ofItems .items
    | some "map" => n.ofEntries .entries
    | some "set" => n.ofEntries .members
    | some "omap" => n.ofItems .pairs
    | some "pairs" => n.ofItems .pairs
    | some name => .scalar (n.scalarValue name)
    | none => .scalar (.error .malformed)

/-- May the node be a key? No collection may. -/
def isKey (n : Node) : Bool :=
  match n.content with
  | .scalar _ => true
  | _ => false

/-- Fills a mapping with entries. -/
def fill (value : Node → Value) (entries : List (Node × Node)) : List (Value × Value) :=
  entries.foldl (fun m e => Value.setKey (value e.1.asKey) (value e.2) m) []

/-- The value of a mapping with one entry, as a sequence of two. -/
def pair (value : Node → Value) : Node → Value
  | .mapping _ [(k, v)] => .sequence [value k, value v]
  | _ => .null

/-- The value of a node. What is wrong counts as null. The fuel bounds the depth. -/
def value : Nat → Node → Value
  | 0, _ => .null
  | fuel + 1, n =>
    match n.content with
    | .scalar (.ok v) => v
    | .scalar (.error _) => .null
    | .items ns => .sequence (ns.map (value fuel))
    | .entries es => .mapping (fill (value fuel) es)
    | .members es => .set ((fill (value fuel) es).map Prod.fst)
    | .pairs ns => .sequence (ns.map (pair (value fuel)))
    | .loop isMapping => .loop isMapping
    | .misfit => .null

/-! ## What is wrong with a node -/

/-- A part of a document: a node, or something that cannot be part of one. -/
inductive Part where
  | node (n : Node)
  | wrong

/-- The fault of a part, apart from the parts in it. -/
def Part.fault? : Part → Option Fault
  | .wrong => some .malformed
  | .node n =>
    match n.content with
    | .scalar (.error f) => some f
    | .scalar (.ok _) => none
    | _ => none

/-- The parts of an entry. A key that may be none comes to light before the value is read. -/
def entryParts (e : Node × Node) : List Part :=
  let k := e.1.asKey
  if k.isKey then [.node k, .node e.2] else [.node k, .wrong, .node e.2]

/-- The parts of a mapping with one entry. -/
def pairParts : Node → List Part
  | .mapping _ [(k, v)] => [.node k, .node v]
  | _ => [.wrong]

/-- The parts in a part, in the order in which they are read. -/
def Part.parts : Part → List Part
  | .wrong => []
  | .node n =>
    match n.content with
    | .scalar _ | .loop _ => []
    | .items ns => ns.map .node
    | .entries es | .members es => es.flatMap entryParts
    | .pairs ns => ns.flatMap pairParts
    | .misfit => [.wrong]

/-- The first fault in a row of parts or in the rows below it. The fuel bounds the rows. -/
def faultFrom : Nat → List Part → Option Fault
  | 0, _ => none
  | fuel + 1, row => (row.findSome? Part.fault?).or (faultFrom fuel (row.flatMap Part.parts))

/-- The fault that comes to light first in a node. -/
def fault? (n : Node) : Option Fault :=
  faultFrom (n.depth + 1) [.node n]

end Node

/-- Reads a text. No document at all is a null. -/
def read (text : String) : Except Fault Value :=
  match Node.root text with
  | .error fault => .error fault
  | .ok none => .ok .null
  | .ok (some node) =>
    match node.fault? with
    | some fault => .error fault
    | none => .ok (node.value node.depth)

end Stencil.Yaml
