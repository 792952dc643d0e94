import Stencil.Toml.Scan

/-!
# TOML documents

Reading a whole document. A table may be declared once and a key set once; an array or table written
in one go cannot be added to afterwards. `parse` gives the document's table, or nothing if the text
is malformed.
-/

namespace Stencil.Toml

/-- A key: the parts between its dots. -/
abbrev Key := List String

/-- Sets the entry of a key, at its place if it has one and at the end if it has none. -/
def Table.set (k : String) (v : Value) : Table → Table
  | [] => [(k, v)]
  | (k', v') :: t => if k' == k then (k', v) :: t else (k', v') :: Table.set k v t

/-- Changes the table that a key leads to. Missing tables on the way are made, and of an array of
tables the last one is taken if `throughArrays` says so. -/
def Table.modifyAt (throughArrays : Bool) (f : Table → Option Table) : Key → Table → Option Table
  | [], t => f t
  | k :: ks, t =>
    match t.lookup k with
    | none => (Table.modifyAt throughArrays f ks []).map fun s => Table.set k (.table s) t
    | some (.table s) =>
      (Table.modifyAt throughArrays f ks s).map fun s' => Table.set k (.table s') t
    | some (.array items) =>
      if throughArrays then
        match items.getLast? with
        | some (.table s) =>
          (Table.modifyAt throughArrays f ks s).map fun s' =>
            Table.set k (.array (items.dropLast ++ [.table s'])) t
        | _ => none
      else none
    | some _ => none

/-- Adds an entry whose key is new. -/
def Table.add (k : String) (v : Value) (t : Table) : Option Table :=
  if (t.lookup k).isSome then none else some (t ++ [(k, v)])

/-- Adds an empty table to the array of tables under a key. -/
def Table.addItem (k : String) (t : Table) : Option Table :=
  match t.lookup k with
  | none => some (t ++ [(k, .array [.table []])])
  | some (.array items) => some (Table.set k (.array (items ++ [.table []])) t)
  | some _ => none

/-- The last part of a key and the parts before it. -/
def splitKey (k : Key) : Key × String :=
  (k.dropLast, k.getLast?.getD "")

/-- Does one of the keys lead to the given key or to a table around it? -/
def covers (ks : List Key) (k : Key) : Bool :=
  ks.any fun p => p.isPrefixOf k

/-- Can a value not be added to, once it is written? -/
def Value.isClosed : Value → Bool
  | .array _ => true
  | .table _ => true
  | _ => false

/-- Passes over blanks, line feeds and comments. The fuel bounds the number of comments. -/
def skipBetween : Nat → List Char → Option (List Char)
  | 0, cs => some cs
  | fuel + 1, cs =>
    match cs.dropWhile isSpaceOrLine with
    | '#' :: rest =>
      match skipComment ('#' :: rest) with
      | some r => skipBetween fuel r
      | none => none
    | r => some r

mutual

/-- Reads a value. The fuel bounds the depth and the number of items. -/
def value : Nat → List Char → Scan Value
  | 0, _ => none
  | fuel + 1, cs =>
    match cs with
    | '\x22' :: _ => (string cs).map fun (s, r) => (.text s, r)
    | '\x27' :: _ => (string cs).map fun (s, r) => (.text s, r)
    | 't' :: _ => (word? "true".toList cs).map (.boolean true, ·)
    | 'f' :: _ => (word? "false".toList cs).map (.boolean false, ·)
    | '[' :: rest =>
      match skipBetween rest.length rest with
      | some (']' :: r) => some (.array [], r)
      | some r => (arrayItems fuel r).map fun (vs, r') => (.array vs, r')
      | none => none
    | '{' :: rest =>
      match skipSpaces rest with
      | '}' :: r => some (.table [], r)
      | r => (inlineEntries fuel [] [] r).map fun (t, r') => (.table t, r')
    | _ => numeric cs

/-- Reads the items of an array, at least one, and its closing bracket. -/
def arrayItems : Nat → List Char → Scan (List Value)
  | 0, _ => none
  | fuel + 1, cs =>
    match value fuel cs with
    | none => none
    | some (v, r₁) =>
      match skipBetween r₁.length r₁ with
      | some (']' :: r) => some ([v], r)
      | some (',' :: r₂) =>
        match skipBetween r₂.length r₂ with
        | some (']' :: r) => some ([v], r)
        | some r₃ => (arrayItems fuel r₃).map fun (vs, r) => (v :: vs, r)
        | none => none
      | _ => none

/-- Reads the entries of a table on one line, at least one, and its closing brace. `closed` holds
the keys of the arrays and tables read so far. -/
def inlineEntries : Nat → List Key → Table → List Char → Scan Table
  | 0, _, _, _ => none
  | fuel + 1, closed, t, cs =>
    match key cs.length cs with
    | some (k, '=' :: r₁) =>
      match value fuel (skipSpaces r₁) with
      | none => none
      | some (v, r₂) =>
        let (parents, last) := splitKey k
        if covers closed k then none
        else
          match Table.modifyAt false (Table.add last v) parents t with
          | none => none
          | some t' =>
            match skipSpaces r₂ with
            | '}' :: r => some (t', r)
            | ',' :: r =>
              inlineEntries fuel (if v.isClosed then closed ++ [k] else closed) t' (skipSpaces r)
            | _ => none
    | _ => none

end

/-- A document while it is read. -/
structure Document where
  table : Table := []
  /-- The table that the entries of the current section go to. -/
  section_ : Key := []
  /-- The tables that may not be declared again. -/
  declared : List Key := []
  /-- The tables that may not be declared again once the current section ends. -/
  pending : List Key := []
  /-- The arrays and tables that were written in one go. -/
  closed : List Key := []

namespace Document

/-- Starts a section for the table under a key. -/
def openTable (d : Document) (k : Key) : Option Document :=
  let declared := d.declared ++ d.pending
  if k ∈ declared || covers d.closed k then none
  else
    (Table.modifyAt true some k d.table).map fun t =>
      { d with table := t, section_ := k, declared := declared ++ [k], pending := [] }

/-- Starts a section for a new table at the end of the array under a key. -/
def openItem (d : Document) (k : Key) : Option Document :=
  if covers d.closed k then none
  else
    let (parents, last) := splitKey k
    let outside (p : Key) : Bool := !k.isPrefixOf p
    (Table.modifyAt true (Table.addItem last) parents d.table).map fun t =>
      { table := t
        section_ := k
        declared := (d.declared ++ d.pending).filter outside ++ [k]
        pending := []
        closed := d.closed.filter outside }

/-- The keys of the tables that a dotted key passes through. -/
def through (sec k : Key) : List Key :=
  (List.range (k.length - 1)).map fun i => sec ++ k.take (i + 1)

/-- Adds an entry to the current section. -/
def addEntry (d : Document) (k : Key) (v : Value) : Option Document :=
  let passed := through d.section_ k
  let (parents, last) := splitKey k
  if passed.any (· ∈ d.declared) || covers d.closed (d.section_ ++ parents) then none
  else
    (Table.modifyAt true (Table.add last v) (d.section_ ++ parents) d.table).map fun t =>
      { d with
        table := t
        pending := d.pending ++ passed
        closed := if v.isClosed then d.closed ++ [d.section_ ++ k] else d.closed }

/-- Reads a declaration or an entry. -/
def statement (d : Document) (cs : List Char) : Scan Document :=
  match cs with
  | '[' :: '[' :: rest =>
    match key rest.length (skipSpaces rest) with
    | some (k, ']' :: ']' :: r) => (d.openItem k).map (·, r)
    | _ => none
  | '[' :: rest =>
    match key rest.length (skipSpaces rest) with
    | some (k, ']' :: r) => (d.openTable k).map (·, r)
    | _ => none
  | _ =>
    match key cs.length cs with
    | some (k, '=' :: r) =>
      match value (r.length + 1) (skipSpaces r) with
      | some (v, r') => (d.addEntry k v).map (·, r')
      | none => none
    | _ => none

/-- Reads the lines of a document. The fuel bounds their number. -/
def lines : Nat → Document → List Char → Option Document
  | 0, _, _ => none
  | fuel + 1, d, cs =>
    match skipSpaces cs with
    | [] => some d
    | '\n' :: rest => lines fuel d rest
    | c :: rest =>
      let read := if c == '#' then some (d, c :: rest) else d.statement (c :: rest)
      match read with
      | none => none
      | some (d', r) =>
        match skipComment (skipSpaces r) with
        | some [] => some d'
        | some ('\n' :: r') => lines fuel d' r'
        | _ => none

end Document

/-- A carriage return before a line feed does not count. -/
def joinBreaks : List Char → List Char
  | '\r' :: '\n' :: cs => '\n' :: joinBreaks cs
  | c :: cs => c :: joinBreaks cs
  | [] => []

/-- Reads a document. -/
def parse (s : String) : Option Table :=
  let cs := joinBreaks s.toList
  (Document.lines (cs.length + 1) {} cs).map Document.table

end Stencil.Toml
