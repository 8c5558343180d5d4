import Universal7420.Resetprop.PropArea

/-
  The property store of `system_properties.cpp`, and the calls
  of `resetprop.c` on it.

  The store has one area for each context.  Which area a name
  belongs to is decided by the contexts, which do not change
  once the store is open; the kinds of contexts differ in this
  only.  What a process outside does, the property service and
  the files of the persistent properties, are parameters.

  Main declarations:
    * `Universal7420.Resetprop.Store`
    * `Universal7420.Resetprop.Store.find`
    * `Universal7420.Resetprop.Store.readCallback`
    * `Universal7420.Resetprop.Store.update`
    * `Universal7420.Resetprop.Store.add`
    * `Universal7420.Resetprop.Store.delete`
    * `Universal7420.Resetprop.checkLegalPropertyName`
    * `Universal7420.Resetprop.setprop2`
    * `Universal7420.Resetprop.getprop2`
    * `Universal7420.Resetprop.deleteprop2`
    * `Universal7420.Resetprop.readPropFile`
-/

------------------------------------------------------------
-- One Property
------------------------------------------------------------

namespace Universal7420

namespace Resetprop

/- `is_read_only` -/
def isReadOnly (name : List Char) : Bool :=
  CText.strncmp 3 name "ro.".toList = 0

namespace PropInfo

/- What `Update` leaves of a property. -/
def update
    (info : PropInfo)
    (value : List Char) :
    PropInfo :=
  let serial := info.serial / 2 * 2 + 1
  { info with
    serial :=
      value.length * 2 ^ 24 + (serial + 1) % 2 ^ 24
    value := value
    offset := overwritten value info.offset }

end PropInfo

namespace PropArea

/- `Update` on the property at an offset. -/
def updateInfo
    (pa : PropArea)
    (off : Nat)
    (value : List Char) :
    PropArea :=
  match pa.infoAt off with
  | none => pa
  | some info => pa.put off (.info (info.update value))

/-
  The value that `ReadCallback` hands to its callback, when
  nobody writes meanwhile.  The value of a read only property
  may be elsewhere; of others, as many bytes are taken as the
  serial says.
-/
def readCallback
    (pa : PropArea)
    (off : Nat) :
    Option (List Char) :=
  match pa.infoAt off with
  | none => none
  | some info =>
      if isReadOnly info.name then
        if info.isLong then
          match pa.data (off + info.offset) with
          | some (.text text) => some text
          | _ => none
        else
          some info.value
      else
        some (info.value.take (info.serial / 2 ^ 24))

end PropArea

end Resetprop

end Universal7420

------------------------------------------------------------
-- The Store
------------------------------------------------------------

namespace Universal7420

namespace Resetprop

/- The area of a name, if there is access to one. -/
abbrev Contexts : Type :=
  List Char → Option Nat

/-
  `SystemProperties` with its areas, and the serial of the
  area that counts all changes.
-/
structure Store where
  initialized : Bool
  areas : Nat → PropArea
  serial : Nat

namespace Store

variable (contexts : Contexts)

/- A change is announced by the next serial. -/
def announce
    (st : Store)
    (i : Nat)
    (pa : PropArea) :
    Store :=
  { st with
    areas := fun j => if j = i then pa else st.areas j
    serial := (st.serial + 1) % 2 ^ 32 }

def setArea
    (st : Store)
    (i : Nat)
    (pa : PropArea) :
    Store :=
  { st with
    areas := fun j => if j = i then pa else st.areas j }

/- A property is its area and its offset there. -/
def find
    (st : Store)
    (name : List Char) :
    Option (Option (Nat × Nat)) :=
  if st.initialized then
    match contexts name with
    | none => some none
    | some i =>
        ((st.areas i).find name).map fun r =>
          r.map fun off => (i, off)
  else
    some none

def readCallback
    (st : Store)
    (pi : Nat × Nat) :
    Option (List Char) :=
  (st.areas pi.1).readCallback pi.2

def update
    (st : Store)
    (pi : Nat × Nat)
    (value : List Char) :
    Int × Store :=
  if propValueMax ≤ value.length then
    (-1, st)
  else if st.initialized then
    (0,
      st.announce pi.1
        ((st.areas pi.1).updateInfo pi.2 value))
  else
    (-1, st)

/- The nodes of an addition that fails stay in the area. -/
def add
    (st : Store)
    (name value : List Char) :
    Option (Int × Store) :=
  if propValueMax ≤ value.length ∧ ¬ isReadOnly name then
    some (-1, st)
  else if name.length < 1 then
    some (-1, st)
  else if st.initialized then
    match contexts name with
    | none => some (-1, st)
    | some i =>
        match (st.areas i).add name value with
        | none => none
        | some (false, pa) => some (-1, st.setArea i pa)
        | some (true, pa) => some (0, st.announce i pa)
  else
    some (-1, st)

def delete
    (st : Store)
    (name : List Char) :
    Option (Int × Store) :=
  if st.initialized then
    match contexts name with
    | none => some (-1, st)
    | some i =>
        match (st.areas i).del name with
        | none => none
        | some (false, pa) => some (-1, st.setArea i pa)
        | some (true, pa) => some (0, st.announce i pa)
  else
    some (-1, st)

end Store

end Resetprop

end Universal7420

------------------------------------------------------------
-- Names And Files
------------------------------------------------------------

namespace Universal7420

namespace Resetprop

/- A character that a name may hold besides the separator. -/
def legalChar (c : Char) : Bool :=
  c = '_' || c = '-' || c = '@' || c = ':' ||
    (decide ('a'.toNat ≤ c.toNat) &&
      decide (c.toNat ≤ 'z'.toNat)) ||
    (decide ('A'.toNat ≤ c.toNat) &&
      decide (c.toNat ≤ 'Z'.toNat)) ||
    (decide ('0'.toNat ≤ c.toNat) &&
      decide (c.toNat ≤ '9'.toNat))

/- The loop, with the character before. -/
def legalFrom (last : Char) : List Char → Bool
| [] => true
| c :: rest =>
    if c = '.' then
      if last = '.' then false else legalFrom c rest
    else if legalChar c then
      legalFrom c rest
    else
      false

/- `check_legal_property_name`, true where it returns zero. -/
def checkLegalPropertyName (name : List Char) : Bool :=
  if name.length < 1 then
    false
  else if name.head? = some '.' then
    false
  else if name.getLast? = some '.' then
    false
  else
    legalFrom '\x00' name

/- A line of a file without its newline. -/
def chomp (line : List Char) : List Char :=
  if line.getLast? = some '\n' then line.dropLast else line

/-
  The name and the value of a line of `read_prop_file`, unless
  it is ignored.  The value is not empty.
-/
def propLine
    (line : List Char) :
    Option (List Char × List Char) :=
  let text := chomp line
  let body := text.dropWhile (· = ' ')
  let i := text.length - body.length
  if body.head? = some '#' then
    none
  else
    match CText.strchr '=' text with
    | none => none
    | some (before, after) =>
        if before.length ≤ i ∨
            text.length - 1 ≤ before.length then
          none
        else
          some (before.drop i, after)

end Resetprop

end Universal7420

------------------------------------------------------------
-- The Calls
------------------------------------------------------------

namespace Universal7420

namespace Resetprop

/- What is outside: the property service and the files. -/
structure Outside where
  propertySet :
    Store → List Char → List Char → Int × Store
  persistGetprop : List Char → Option (List Char)
  persistDeleteprop : List Char → Bool

def isPersist (name : List Char) : Bool :=
  CText.strncmp 8 name "persist.".toList = 0

/- What `getprop2` returns, or a text too long to copy. -/
inductive Got where
| null
| value (text : List Char)
| overflow (text : List Char)
deriving DecidableEq, Repr

variable (contexts : Contexts)
variable (outside : Outside)

/- The value is copied to an array of `PROP_VALUE_MAX`. -/
def getprop2
    (st : Store)
    (name : List Char)
    (persist : Bool) :
    Option Got :=
  if checkLegalPropertyName name = false then
    some .null
  else if st.initialized = false then
    some .null
  else
    match st.find contexts name with
    | none => none
    | some none =>
        if persist && isPersist name then
          match outside.persistGetprop name with
          | some value => some (.value value)
          | none => some .null
        else
          some .null
    | some (some pi) =>
        match st.readCallback pi with
        | none => none
        | some text =>
            if propValueMax ≤ text.length then
              some (.overflow text)
            else
              some (.value text)

def deleteprop2
    (st : Store)
    (name : List Char)
    (persist : Bool) :
    Option (Int × Store) :=
  if checkLegalPropertyName name = false then
    some (1, st)
  else if st.initialized = false then
    some (-1, st)
  else
    let gone :=
      persist && isPersist name &&
        outside.persistDeleteprop name
    match st.delete contexts name with
    | none => none
    | some (ret, st) =>
        some
          ((if ret ≠ 0 ∧ gone = false then 1 else 0), st)

def setprop2
    (st : Store)
    (name value : List Char)
    (trigger : Bool) :
    Option (Int × Store) :=
  if checkLegalPropertyName name = false then
    some (1, st)
  else if st.initialized = false then
    some (-1, st)
  else
    match st.find contexts name with
    | none => none
    | some (some pi) =>
        if trigger then
          if isReadOnly name then
            match deleteprop2 contexts outside st name true with
            | none => none
            | some (_, st) =>
                some (outside.propertySet st name value)
          else
            some (outside.propertySet st name value)
        else
          some (st.update pi value)
    | some none =>
        if trigger then
          some (outside.propertySet st name value)
        else
          st.add contexts name value

/- The lines of a file one after another. -/
def readPropFile
    (trigger : Bool) :
    List (List Char) → Store → Option Store
| [], st => some st
| line :: lines, st =>
    match propLine line with
    | none => readPropFile trigger lines st
    | some (name, value) =>
        match
          setprop2 contexts outside st name value trigger
        with
        | none => none
        | some (_, st) => readPropFile trigger lines st

end Resetprop

end Universal7420
