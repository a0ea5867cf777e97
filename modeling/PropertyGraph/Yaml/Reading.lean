import PropertyGraph.Yaml.Basic

/-!
# Reading settings documents

The reader knows block mappings and sequences by indentation, flow collections, plain and quoted
scalars, comments and document markers. A plain scalar goes on in lines that are indented further, and
a key stands on one line. Anchors, tags, block scalars and several documents in one text are refused.
-/

namespace PropertyGraph

namespace Yaml

structure Cursor where
  rest : List Char
  column : Nat
  /-- Nothing but blanks stands before it on its line. -/
  fresh : Bool

def isAllowed (c : Char) : Bool :=
  c == '\t' || c == '\n' || c == '\r' || ('\x20' ≤ c && c ≤ '\x7e') || c == '\x85' ||
    ('\xa0' ≤ c && c != '\ufeff' && c != '\ufffe' && c != '\uffff')

/-- All line breaks written in one way. -/
def unifyBreaks : List Char → List Char
  | [] => []
  | '\r' :: '\n' :: rest => '\n' :: unifyBreaks rest
  | c :: rest =>
    (if c = '\r' ∨ c = '\x85' ∨ c = '\u2028' ∨ c = '\u2029' then '\n' else c) :: unifyBreaks rest

/-- Whether a blank, a line break or the end comes first. -/
def blankFirst : List Char → Bool
  | [] => true
  | c :: _ => c == ' ' || c == '\t' || c == '\n'

/-- Skips blanks, line breaks and comments. A tab does not indent. -/
def skipFrom (flow : Bool) : (column : Nat) → (fresh comment : Bool) → List Char → Cursor
  | column, fresh, _, [] => ⟨[], column, fresh⟩
  | _, _, _, '\n' :: rest => skipFrom flow 0 true false rest
  | column, fresh, true, _ :: rest => skipFrom flow (column + 1) fresh true rest
  | column, fresh, false, c :: rest =>
    if c = ' ' ∨ (c = '\t' ∧ (flow ∨ !fresh)) then skipFrom flow (column + 1) fresh false rest
    else if c = '#' then skipFrom flow (column + 1) fresh true rest
    else ⟨c :: rest, column, fresh⟩

namespace Cursor

def skip (flow : Bool) (c : Cursor) : Cursor := skipFrom flow c.column c.fresh false c.rest

/-- The place a number of characters later on the same line. -/
def advance (count : Nat) (c : Cursor) : Cursor := ⟨c.rest.drop count, c.column + count, false⟩

def startsWith (word : List Char) (c : Cursor) : Bool :=
  word.isPrefixOf c.rest && blankFirst (c.rest.drop word.length)

/-- A marker that begins or ends a document. -/
def atMarker (c : Cursor) : Bool :=
  c.column == 0 && (c.startsWith ['-', '-', '-'] || c.startsWith ['.', '.', '.'])

def atEnd (c : Cursor) : Bool := c.rest.isEmpty || c.atMarker

/-- Skips blanks on the same line. -/
def skipBlanks (c : Cursor) : Cursor :=
  let blanks := c.rest.takeWhile fun ch => ch == ' ' || ch == '\t'
  c.advance blanks.length

/-- Whether an item of a block sequence begins here. -/
def atItem (c : Cursor) : Bool := c.startsWith ['-']

/-- Whether a colon ends a key here, after blanks. -/
def atColon (c : Cursor) : Bool := c.skipBlanks.startsWith [':']

end Cursor

/-- Blanks and line breaks between two lines of a scalar: the number of breaks, and the place after
them. -/
def breaksFrom : (breaks column : Nat) → List Char → Nat × Cursor
  | breaks, _, '\n' :: rest => breaksFrom (breaks + 1) 0 rest
  | breaks, column, c :: rest =>
    if c = ' ' ∨ c = '\t' then breaksFrom breaks (column + 1) rest
    else (breaks, ⟨c :: rest, column, true⟩)
  | breaks, column, [] => (breaks, ⟨[], column, true⟩)

/-- What stands for line breaks within a scalar: one becomes a blank, of several one is lost. -/
def folded (breaks : Nat) : List Char :=
  if breaks = 1 then [' '] else List.replicate (breaks - 1) '\n'

def isFlowMark (c : Char) : Bool := c == ',' || c == '[' || c == ']' || c == '\x7b' || c == '\x7d'

/-- The rest of a line of a plain scalar, in reverse, and the place after it. -/
def plainLine (flow : Bool) :
    (taken blanks : List Char) → (column : Nat) → List Char → Option (List Char × Cursor)
  | taken, _, column, [] => some (taken, ⟨[], column, false⟩)
  | taken, blanks, column, c :: rest =>
    let stop := some (taken, ⟨c :: rest, column, false⟩)
    if c = '\n' then stop
    else if c = ' ' ∨ c = '\t' then plainLine flow taken (c :: blanks) (column + 1) rest
    else if c = '#' ∧ !blanks.isEmpty then stop
    else if c = ':' ∧ blankFirst rest then stop
    else if flow ∧ c = ':' ∧ rest.head?.any (fun n => isFlowMark n || n == '?') then none
    else if flow ∧ isFlowMark c then stop
    else plainLine flow (c :: (blanks ++ taken)) [] (column + 1) rest

/-- Whether a plain scalar can begin here. -/
def plainFirst (flow : Bool) : List Char → Bool
  | [] => false
  | '-' :: rest => !blankFirst rest
  | '?' :: rest | ':' :: rest => !flow && !blankFirst rest
  | c :: _ =>
    !(blankFirst [c] || isFlowMark c ||
      ['#', '&', '*', '!', '|', '>', '\'', '"', '%', '@', '\x60'].contains c)

/-- The further lines of a plain scalar. In a block they are indented. -/
def plainLines (flow : Bool) (minColumn : Nat) : Nat → List Char → Cursor →
    Option (List Char × Cursor)
  | 0, taken, c => some (taken, c)
  | fuel + 1, taken, c =>
    match c.rest with
    | '\n' :: _ =>
      let (breaks, next) := breaksFrom 0 c.column c.rest
      if next.atEnd || next.rest.head? == some '#' || (!flow && next.column < minColumn) then
        some (taken, c)
      else
        match plainLine flow [] [] next.column next.rest with
        | none => none
        | some ([], _) => some (taken, c)
        | some (line, after) => plainLines flow minColumn fuel (line ++ folded breaks ++ taken) after
    | _ => some (taken, c)

/-- Characters that stand for others after a backslash. -/
def escapes : List (Char × Char) :=
  [('0', '\x00'), ('a', '\x07'), ('b', '\x08'), ('t', '\t'), ('\t', '\t'), ('n', '\n'),
    ('v', '\x0b'), ('f', '\x0c'), ('r', '\r'), ('e', '\x1b'), (' ', ' '), ('"', '"'), ('/', '/'),
    ('\\', '\\'), ('N', '\x85'), ('_', '\xa0'), ('L', '\u2028'), ('P', '\u2029')]

/-- The number of hexadecimal digits after the letter of a numeric escape. -/
def escapeWidths : List (Char × Nat) := [('x', 2), ('u', 4), ('U', 8)]

def charOfCode? (code : Nat) : Option Char :=
  if code.isValidChar then some (Char.ofNat code) else none

/-- An escape after its backslash, and the number of its characters. -/
def escaped? : List Char → Option (Char × Nat)
  | [] => none
  | c :: rest =>
    match escapes.lookup c, escapeWidths.lookup c with
    | some meant, _ => some (meant, 1)
    | none, some width =>
      if rest.length < width then none
      else do
        let code ← digits? 16 32 (rest.take width)
        return (← charOfCode? code, width + 1)
    | none, none => none

/-- A quoted scalar after its opening quote. Text before a line break loses its blanks. -/
def quotedFrom (quote : Char) : Nat → List Char → (column : Nat) → List Char →
    Option (String × Cursor)
  | 0, _, _, _ => none
  | _, _, _, [] => none
  | fuel + 1, taken, column, c :: rest =>
    if c = quote then
      if quote = '\'' ∧ rest.head? = some '\'' then
        quotedFrom quote fuel ('\'' :: taken) (column + 2) (rest.drop 1)
      else some (String.ofList taken.reverse, ⟨rest, column + 1, false⟩)
    else if c = '\n' then
      let (breaks, next) := breaksFrom 0 column (c :: rest)
      let kept := taken.dropWhile fun b => b == ' ' || b == '\t'
      if next.atEnd then none
      else quotedFrom quote fuel (folded breaks ++ kept) next.column next.rest
    else if quote = '"' ∧ c = '\\' then
      if rest.head? = some '\n' then
        let (breaks, next) := breaksFrom 0 column rest
        quotedFrom quote fuel (List.replicate (breaks - 1) '\n' ++ taken) next.column next.rest
      else
        match escaped? rest with
        | some (meant, width) =>
          quotedFrom quote fuel (meant :: taken) (column + 1 + width) (rest.drop width)
        | none => none
    else quotedFrom quote fuel (c :: taken) (column + 1) rest

/-- A quoted scalar, or the first line of a plain one. -/
def scalarAt (flow : Bool) (c : Cursor) : Option (Yaml × Cursor) :=
  match c.rest with
  | [] => none
  | first :: rest =>
    if first = '"' ∨ first = '\'' then
      (quotedFrom first (rest.length + 1) [] (c.column + 1) rest).map fun (text, c) =>
        (scalar text false, c)
    else if plainFirst flow c.rest then
      (plainLine flow [] [] c.column c.rest).map fun (taken, c) =>
        (scalar (String.ofList taken.reverse) true, c)
    else none

/-- The whole of a scalar whose first line has been read. -/
def wholeScalar (flow : Bool) (minColumn : Nat) (first : Yaml × Cursor) : Option (Yaml × Cursor) :=
  match first with
  | (scalar text true, c) =>
    (plainLines flow minColumn (c.rest.length + 1) text.toList.reverse c).map fun (taken, c) =>
      (scalar (String.ofList taken.reverse) true, c)
  | other => some other

/-- A key on one line, and the place after its colon. -/
def keyAt? (c : Cursor) : Option (Yaml × Cursor) := do
  let (key, after) ← scalarAt false c
  let line := c.rest.length - after.rest.length
  if (c.rest.take line).contains '\n' then none
  else if after.atColon then some (key, after.skipBlanks.advance 1)
  else none

/-! ### Collections -/

mutual
/-- A node within brackets. -/
def flowNode : Nat → Cursor → Option (Yaml × Cursor)
  | 0, _ => none
  | fuel + 1, c =>
    match c.rest with
    | '[' :: _ => flowItems fuel [] ((c.advance 1).skip true)
    | '\x7b' :: _ => flowEntries fuel [] ((c.advance 1).skip true)
    | _ => (scalarAt true c).bind (wholeScalar true 0)
termination_by structural fuel => fuel
/-- The items up to the closing bracket, those before in reverse. -/
def flowItems : Nat → List Yaml → Cursor → Option (Yaml × Cursor)
  | 0, _, _ => none
  | fuel + 1, before, c =>
    match c.rest with
    | ']' :: _ => some (sequence before.reverse, c.advance 1)
    | _ => do
      let (entry, c) ← flowEntry fuel c
      let item := match entry with
        | (node, none) => node
        | (key, some value) => mapping [(key, value)]
      match c.rest with
      | ',' :: _ => flowItems fuel (item :: before) ((c.advance 1).skip true)
      | ']' :: _ => some (sequence (item :: before).reverse, c.advance 1)
      | _ => none
termination_by structural fuel => fuel
/-- The entries up to the closing brace, those before in reverse. -/
def flowEntries : Nat → List (Yaml × Yaml) → Cursor → Option (Yaml × Cursor)
  | 0, _, _ => none
  | fuel + 1, before, c =>
    match c.rest with
    | '\x7d' :: _ => some (mapping before.reverse, c.advance 1)
    | _ => do
      let ((key, value), c) ← flowEntry fuel c
      let before := (key, value.getD empty) :: before
      match c.rest with
      | ',' :: _ => flowEntries fuel before ((c.advance 1).skip true)
      | '\x7d' :: _ => some (mapping before.reverse, c.advance 1)
      | _ => none
termination_by structural fuel => fuel
/-- A node with the value after its colon, if there is one, and the place of what follows. -/
def flowEntry : Nat → Cursor → Option ((Yaml × Option Yaml) × Cursor)
  | 0, _ => none
  | fuel + 1, c => do
    let (node, c) ← flowNode fuel c
    let c := c.skip true
    match c.rest with
    | ':' :: _ =>
      let c := (c.advance 1).skip true
      if c.rest.head?.any fun ch => ch == ',' || ch == ']' || ch == '\x7d' then
        some ((node, some empty), c)
      else do
        let (value, c) ← flowNode fuel c
        some ((node, some value), c.skip true)
    | _ => some ((node, none), c)
termination_by structural fuel => fuel
end

mutual
/-- A node in a block, indented to a column at least. Behind a key on the same line no block
collection begins. -/
def blockNode : Nat → (minColumn : Nat) → (inline : Bool) → Cursor → Option (Yaml × Cursor)
  | 0, _, _, _ => none
  | fuel + 1, minColumn, inline, c =>
    if c.rest.head?.any fun ch => ch == '[' || ch == '\x7b' then do
      let (node, after) ← flowNode c.rest.length c
      if after.atColon then none else some (node, after)
    else if c.atItem then
      if inline then none else blockItems fuel c.column [] c
    else
      match keyAt? c with
      | some _ => if inline then none else blockEntries fuel c.column [] c
      | none => (scalarAt false c).bind (wholeScalar false minColumn)
termination_by structural fuel => fuel
/-- The items of a sequence at a column, those before in reverse. -/
def blockItems : Nat → (column : Nat) → List Yaml → Cursor → Option (Yaml × Cursor)
  | 0, _, _, _ => none
  | fuel + 1, column, before, c => do
    let start := (c.advance 1).skip false
    let (item, c) ←
      if start.atEnd || (start.fresh && start.column ≤ column) then some (empty, start)
      else blockNode fuel (column + 1) false start
    let c := c.skip false
    if c.atEnd || (c.fresh && c.column < column) then some (sequence (item :: before).reverse, c)
    else if c.fresh && c.column == column then
      if c.atItem then blockItems fuel column (item :: before) c
      else some (sequence (item :: before).reverse, c)
    else none
termination_by structural fuel => fuel
/-- The entries of a mapping at a column, those before in reverse. -/
def blockEntries : Nat → (column : Nat) → List (Yaml × Yaml) → Cursor → Option (Yaml × Cursor)
  | 0, _, _, _ => none
  | fuel + 1, column, before, c => do
    let (key, c) ← keyAt? c
    let start := c.skip false
    let (value, c) ←
      if start.atEnd then some (empty, start)
      else if !start.fresh then blockNode fuel (column + 1) true start
      else if column < start.column then blockNode fuel (column + 1) false start
      else if column == start.column && start.atItem then blockItems fuel column [] start
      else some (empty, start)
    let c := c.skip false
    let before := (key, value) :: before
    if c.atEnd || (c.fresh && c.column < column) then some (mapping before.reverse, c)
    else if c.fresh && c.column == column then blockEntries fuel column before c
    else none
termination_by structural fuel => fuel
end

/-- Whether nothing follows a document but its end marker. -/
def isLast (c : Cursor) : Bool :=
  if c.rest.isEmpty then true
  else c.column == 0 && c.startsWith ['.', '.', '.'] && ((c.advance 3).skip false).rest.isEmpty

/-- The tree of a text that holds one document. -/
def ofText? (text : String) : Option Yaml := do
  let cs := match text.toList with
    | '\ufeff' :: cs => cs
    | cs => cs
  if !cs.all isAllowed then none
  let cs := unifyBreaks cs
  let start := Cursor.skip false ⟨cs, 0, true⟩
  let marked := start.column == 0 && start.startsWith ['-', '-', '-']
  let c := if marked then (start.advance 3).skip false else start
  let (node, c) ←
    if c.atEnd then some (empty, c)
    else blockNode (cs.length + 1) 0 (marked && !c.fresh) c
  if isLast (c.skip false) then some node else none

end Yaml

end PropertyGraph
