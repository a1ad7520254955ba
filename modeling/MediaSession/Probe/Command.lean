import MediaSession.Ports.Range

/-!
# The commands of the probe

The probe looks at one thing: the tracks of a description in a file, the fields of a packet in hexadecimal, or the
sockets that can be opened on a range of ports. Here: its commands, and how they are read from arguments. What is not
understood as a whole is not understood at all.
-/

namespace MediaSession.Probe

/-- The name that stands for standard input in place of a file. -/
def standardInput : Text := ['-']

/-- What the probe is asked to do. -/
inductive Command where
  /-- Show the description in a file or on standard input. -/
  | describe (file : Text)
  /-- Show a packet. -/
  | decode (hex : Text)
  /-- Open socket pairs. -/
  | draw (range : PortRange) (count : Nat) (protocol : Protocol)
  deriving DecidableEq, Repr

/-- The argument after which no argument is an option. -/
def dashes : Text := "--".toList

/-- The options of the command that opens socket pairs, each given at most once. -/
structure DrawOptions where
  range : Option PortRange := none
  count : Option Nat := none
  tcp : Bool := false

/-- The number of socket pairs that are opened when none is given. -/
def usualCount : Nat := 4

/-- An option of the command that opens socket pairs, and its value if it stands in the same argument. -/
inductive DrawFlag where
  | range (value : Option Text)
  | count (value : Option Text)
  | tcp

namespace DrawFlag

/-- The value of an option in the same argument, without the equals sign before it. -/
def attached : Text → Option Text
  | [] => none
  | '=' :: value => some value
  | value => some value

/-- The option that an argument names, by its letter or its word. -/
def read? (argument : Text) : Option DrawFlag :=
  match argument with
  | '-' :: '-' :: word =>
    let (name, value) :=
      match Text.cut? '=' word with
      | some (name, value) => (name, some value)
      | none => (word, none)
    if name = "range".toList then some (.range value)
    else if name = "count".toList then some (.count value)
    else if name = "tcp".toList ∧ value = none then some .tcp
    else none
  | '-' :: 'r' :: value => some (.range (attached value))
  | '-' :: 'c' :: value => some (.count (attached value))
  | _ => none

end DrawFlag

namespace DrawOptions

/-- The options with a range. -/
def withRange? (o : DrawOptions) (value : Text) : Option DrawOptions :=
  match o.range, PortRange.read value with
  | none, .ok range => some { o with range }
  | _, _ => none

/-- The options with a count. -/
def withCount? (o : DrawOptions) (value : Text) : Option DrawOptions :=
  match o.count, Text.readBelow? UInt64.size value with
  | none, some count => some { o with count }
  | _, _ => none

/-- The options with the choice of TCP. -/
def withTcp? (o : DrawOptions) : Option DrawOptions := if o.tcp then none else some { o with tcp := true }

/-- Reads options. A value stands in the argument of its option or in the next one; two hyphens may stand at the end. -/
def read? : DrawOptions → List Text → Option DrawOptions
  | o, [] => some o
  | o, argument :: rest =>
    if argument = dashes then if rest = [] then some o else none
    else
      match DrawFlag.read? argument, rest with
      | some (.range (some value)), rest => (o.withRange? value).bind (read? · rest)
      | some (.count (some value)), rest => (o.withCount? value).bind (read? · rest)
      | some .tcp, rest => o.withTcp?.bind (read? · rest)
      | some (.range none), value :: rest => (o.withRange? value).bind (read? · rest)
      | some (.count none), value :: rest => (o.withCount? value).bind (read? · rest)
      | _, _ => none

/-- The command with these options. -/
def command (o : DrawOptions) : Command :=
  .draw (o.range.getD .usual) (o.count.getD usualCount) (if o.tcp then .tcp else .udp)

end DrawOptions

/-- An argument that is not taken for an option: one that does not begin with a hyphen, or is nothing else. -/
def plain? (argument : Text) : Option Text :=
  if argument.head? = some '-' ∧ argument.length ≠ 1 then none else some argument

/-- The one argument of a command. After two hyphens it may look like an option. -/
def readOperand? : List Text → Option Text
  | [operand] => plain? operand
  | [first, second] => if first = dashes then some second else if second = dashes then plain? first else none
  | _ => none

/-- The command that arguments give, if they are understood. -/
def readCommand? : List Text → Option Command
  | [] => none
  | name :: arguments =>
    if name = "sdp".toList then (readOperand? arguments).map .describe
    else if name = "rtp".toList then (readOperand? arguments).map .decode
    else if name = "ports".toList then (DrawOptions.read? {} arguments).map DrawOptions.command
    else none

end MediaSession.Probe
