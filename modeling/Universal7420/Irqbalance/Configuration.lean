import Universal7420.Irqbalance.ProcStat

/-
  The parser of `irqbalance.conf`, and the grammar of the file.

  The parser takes one character with `fgetc` and the rest of
  a command with `fscanf`.  A trailing newline in a format
  swallows all white space, also blank lines, while a comment
  without a text leaves its newline behind.

  Main declarations:
    * `Universal7420.Irqbalance.Config`
    * `Universal7420.Irqbalance.configStep`
    * `Universal7420.Irqbalance.readIrqbalanceConfiguration`
    * `Universal7420.Irqbalance.ConfigItem`
    * `Universal7420.Irqbalance.configText`
    * `Universal7420.Irqbalance.lastValues`
-/

------------------------------------------------------------
-- The Parser
------------------------------------------------------------

namespace Universal7420

namespace Irqbalance

open CText Scanf

/- The globals that the file sets. -/
structure Config where
  nrCpus : Int
  offsCpus : Int
  threadDelay : UInt64
  irqBlacklist : List Int
  irqBlacklistNum : Int
deriving DecidableEq, Repr

/- The values of the globals at the start. -/
def Config.initial : Config where
  nrCpus := -1
  offsCpus := -1
  threadDelay := 0
  irqBlacklist := []
  irqBlacklistNum := 0

/- What the parser may do that C leaves undefined. -/
inductive ConfigFault where
| heapOverflow
| indeterminateCommand
deriving DecidableEq, Repr

/- The format `"%d\n"`. -/
def intFormat : List Directive :=
  [.int, .space]

/- The format `"%llu\n"`. -/
def ullFormat : List Directive :=
  [.ull, .space]

/- The stored number, or the old one. -/
def storedInt
    (old : Int) : List Value → Int
| .int v :: _ => v
| _ => old

/- The stored number, or the old one. -/
def storedUll
    (old : UInt64) : List Value → UInt64
| .ull n :: _ => n
| _ => old

/- `irq_blacklist_sz`, converted to `int`. -/
def irqBlacklistSz (num : Int) : Int :=
  (num * 4).bmod (2 ^ 32)

/-
  The loop over the blacklist from entry `i` on: whether every
  entry was read, the array, and the stream.
-/
def readBlacklist :
    Nat → Nat → List Int → Stream →
      Except ConfigFault (Bool × List Int × Stream)
| 0, _, blacklist, fp => .ok (true, blacklist, fp)
| left + 1, i, blacklist, fp =>
    let scanned := fscanf intFormat fp
    if scanned.ret ≠ 1 then
      .ok (false, blacklist, scanned.stream)
    else if i < blacklist.length then
      readBlacklist left (i + 1)
        (blacklist.set i (storedInt 0 scanned.values))
        scanned.stream
    else
      .error .heapOverflow

/- One turn of the main loop. -/
inductive ConfigTurn where
| next (config : Config) (fp : Stream)
| ret (code : Int) (config : Config)
| fault (fault : ConfigFault)
deriving DecidableEq

section Parser

variable (malloc : Nat → Bool)

/- Allocate and read the number of entries just stored. -/
def fillBlacklist
    (config : Config)
    (fp : Stream) : ConfigTurn :=
  let sz := irqBlacklistSz config.irqBlacklistNum
  if malloc (sz % 2 ^ 64).toNat then
    match readBlacklist config.irqBlacklistNum.toNat 0
        (List.replicate (sz / 4).toNat 0) fp with
    | .error fault => .fault fault
    | .ok (complete, blacklist, fp) =>
        if complete then
          .next { config with irqBlacklist := blacklist } fp
        else
          .ret (-22) { config with irqBlacklist := blacklist }
  else
    .ret (-12) { config with irqBlacklist := [] }

/- The command `blck`. -/
def readBlck
    (config : Config)
    (fp : Stream) : ConfigTurn :=
  let scanned := fscanf intFormat fp
  fillBlacklist malloc
    { config with
      irqBlacklistNum :=
        storedInt config.irqBlacklistNum scanned.values }
    scanned.stream

/- The comparison of `cmd` with the four commands. -/
def runCommand
    (config : Config)
    (cmd : List Char)
    (fp : Stream) : ConfigTurn :=
  if cmd = ['c', 'p', 'u', 'n'] then
    let scanned := fscanf intFormat fp
    .next { config with
      nrCpus := storedInt config.nrCpus scanned.values }
      scanned.stream
  else if cmd = ['c', 'p', 'u', 'o'] then
    let scanned := fscanf intFormat fp
    .next { config with
      offsCpus := storedInt config.offsCpus scanned.values }
      scanned.stream
  else if cmd = ['t', 'd', 'e', 'l'] then
    let scanned := fscanf ullFormat fp
    .next { config with
      threadDelay :=
        storedUll config.threadDelay scanned.values }
      scanned.stream
  else if cmd = ['b', 'l', 'c', 'k'] then
    readBlck malloc config fp
  else
    .ret (-22) config

/-
  The body of the loop.  At the end of the file `cmd[0]` is no
  character of a command.  When `%3s` stores nothing, the rest
  of `cmd` is indeterminate, which matters if `cmd[0]` starts
  a command.
-/
def configStep
    (config : Config)
    (fp : Stream) : ConfigTurn :=
  match fgetc fp with
  | (none, _) => .ret (-22) config
  | (some first, fp) =>
      if first = '#' then
        .next config (fscanf lineFormat fp).stream
      else
        let scanned := fscanf [.word 3] fp
        match scanned.values with
        | [.word rest] =>
            runCommand malloc config (first :: rest)
              scanned.stream
        | _ =>
            if first ∈ ['c', 't', 'b'] then
              .fault .indeterminateCommand
            else
              .ret (-22) config

/- `while (!feof(fp))`, with a bound on the turns. -/
def configLoop :
    Nat → Config → Stream →
      Option (Except ConfigFault (Int × Config))
| 0, _, _ => none
| fuel + 1, config, fp =>
    if fp.eof then
      some (.ok (0, config))
    else
      match configStep malloc config fp with
      | .next config fp => configLoop fuel config fp
      | .ret code config => some (.ok (code, config))
      | .fault fault => some (.error fault)

/-
  `read_irqbalance_configuration`; the file is absent when it
  cannot be opened.  Every turn but the last consumes a
  character.
-/
def readIrqbalanceConfiguration
    (file : Option (List Char)) :
    Option (Except ConfigFault (Int × Config)) :=
  match file with
  | none => some (.ok (-2, Config.initial))
  | some text =>
      configLoop malloc (text.length + 1) Config.initial
        (fopen text)

end Parser

end Irqbalance

end Universal7420

------------------------------------------------------------
-- The Grammar
------------------------------------------------------------

namespace Universal7420

namespace Irqbalance

open CText Scanf

/- A numeral that fits `int`. -/
structure IntNumeral where
  numeral : Numeral
  range : IsInt32 numeral.value

/- A nonnegative numeral that fits `unsigned long long`. -/
structure UllNumeral where
  numeral : Numeral
  stored : UInt64
  value : numeral.value = stored.toNat

/- The text of a blank line. -/
structure BlankLine where
  spaces : List Char
  blank : ∀ c ∈ spaces, isSpace c = true
  oneLine : '\n' ∉ spaces

/- The text of a comment after its `#`. -/
structure CommentLine where
  body : List Char
  oneLine : '\n' ∉ body

/- A number of interrupts and as many lines. -/
structure BlacklistLines where
  count : IntNumeral
  entries : List IntNumeral
  complete : count.numeral.value = entries.length

inductive ConfigItem where
| blank (line : BlankLine)
| comment (line : CommentLine)
| cpun (n : IntNumeral)
| cpuo (n : IntNumeral)
| tdel (n : UllNumeral)
| blck (list : BlacklistLines)

/- The lines of the entries, each after a newline. -/
def entriesText (entries : List IntNumeral) : List Char :=
  entries.flatMap (fun entry => '\n' :: entry.numeral.text)

namespace ConfigItem

/- The text without the newline at its end. -/
def text : ConfigItem → List Char
| .blank line => line.spaces
| .comment line => '#' :: line.body
| .cpun n => ['c', 'p', 'u', 'n', ' '] ++ n.numeral.text
| .cpuo n => ['c', 'p', 'u', 'o', ' '] ++ n.numeral.text
| .tdel n => ['t', 'd', 'e', 'l', ' '] ++ n.numeral.text
| .blck list =>
    ['b', 'l', 'c', 'k', ' '] ++
      (list.count.numeral.text ++ entriesText list.entries)

/- The number of cores that an item gives. -/
def nrCpus? : ConfigItem → Option Int
| .cpun n => some n.numeral.value
| _ => none

/- The first core that an item gives. -/
def offsCpus? : ConfigItem → Option Int
| .cpuo n => some n.numeral.value
| _ => none

/- The delay that an item gives. -/
def threadDelay? : ConfigItem → Option UInt64
| .tdel n => some n.stored
| _ => none

/- The blacklist that an item gives. -/
def irqBlacklist? : ConfigItem → Option (List Int)
| .blck list =>
    some (list.entries.map (fun entry => entry.numeral.value))
| _ => none

def isBlank : ConfigItem → Bool
| .blank _ => true
| _ => false

/- A comment that ends right after its `#`. -/
def isEmptyComment : ConfigItem → Bool
| .comment line => line.body.isEmpty
| _ => false

/- The size of the blacklist in bytes fits `int`. -/
def Fits : ConfigItem → Prop
| .blck list => list.entries.length < 2 ^ 29
| _ => True

end ConfigItem

/- The lines of a file, separated by newlines. -/
def configText (items : List ConfigItem) : List Char :=
  ['\n'].intercalate (items.map ConfigItem.text)

/- The last value that the items give, or a default. -/
def lastValue
    {α : Type}
    (value? : ConfigItem → Option α)
    (default : α)
    (items : List ConfigItem) : α :=
  (items.filterMap value?).getLast?.getD default

/- The globals that the commands of a file ask for. -/
def lastValues (items : List ConfigItem) : Config where
  nrCpus := lastValue ConfigItem.nrCpus? (-1) items
  offsCpus := lastValue ConfigItem.offsCpus? (-1) items
  threadDelay := lastValue ConfigItem.threadDelay? 0 items
  irqBlacklist := lastValue ConfigItem.irqBlacklist? [] items
  irqBlacklistNum :=
    (lastValue ConfigItem.irqBlacklist? [] items).length

/-
  What the parser needs: an empty comment is the last line,
  and a blacklist fits.
-/
def Readable : List ConfigItem → Prop
| [] => True
| item :: items =>
    (item.isEmptyComment = true → items = []) ∧
      item.Fits ∧ Readable items

end Irqbalance

end Universal7420
