import BlockStage.Files.Path
import BlockStage.Json.Token

/-!
# Addresses of databases

A database is named by the path of its file, or by an address that starts with
`file:` and may carry options behind a question mark.  In an address a percent
sign with two hexadecimal digits stands for a byte; a zero byte ends the part in
which it stands, and everything behind a number sign is left out.  Options that
decide nothing are passed over, and an option without a name is no option.
-/

namespace BlockStage

/-- What a database may be used for. -/
inductive Permission where
  /-- Reading a database that is there. -/
  | readOnly
  /-- Reading and writing a database that is there. -/
  | readWrite
  /-- Reading and writing, with a new database when none is there. -/
  | create
  /-- Reading and writing in memory, whatever is there. -/
  | memory
deriving DecidableEq

def Permission.rank : Permission → Nat
  | .readOnly => 0
  | .readWrite => 1
  | .create => 2
  | .memory => 3

/-- Whether a permission may be replaced by another one: a file is never granted
more than before. -/
def Permission.admits (present next : Permission) : Bool :=
  next == .memory || next.rank ≤ present.rank

/-- How a database reaches its file. -/
inductive Backing where
  /-- With locks on the file, and an index of the log that all users share. -/
  | shared
  /-- With locks on the file that keep all other users away. -/
  | exclusive
  /-- Without locks, and without an index of a log. -/
  | lockless
  /-- With a directory as lock, and without an index of a log. -/
  | lockDirectory
  /-- Not at all: the database stays in memory. -/
  | memory
deriving DecidableEq

/-- A database and the way in which it is to be used. -/
structure Access where
  file : PathBytes
  permission : Permission := .create
  backing : Backing := .shared
  /-- Whether nobody is expected to change the file. -/
  immutable : Bool := false
  /-- Whether the file is used without locks. -/
  unlocked : Bool := false
  /-- A file whose rights are given to a new database. -/
  rightsOf : Option PathBytes := none
  /-- Whether a failing write spoils no more than the bytes written. -/
  sparing : Bool := true

namespace Access

/-- Whether the database has no file because of its name or permission. -/
def isUnnamed (access : Access) : Bool :=
  access.file.isEmpty || access.file == Path.bytes ":memory:" || access.permission == .memory

def isThrowaway (access : Access) : Bool := access.isUnnamed || access.backing == .memory

def writable (access : Access) : Bool :=
  access.permission != .readOnly && !access.immutable

def canLog (access : Access) : Bool :=
  (access.backing == .shared || access.backing == .exclusive) && !access.unlocked &&
    !access.immutable

/-- Whether the index of a log is kept in a file.  An exclusive
user needs none, but nobody can be the exclusive user of a file to be read only. -/
def indexesFile (access : Access) : Bool :=
  access.backing == .shared || access.permission == .readOnly

def makesDirectory (access : Access) : Bool :=
  access.backing == .lockDirectory && !access.unlocked && !access.immutable

/-- Whether a record of unfinished changes is looked for.  The lock directory of
the database itself counts as somebody at work on them. -/
def seeksUnfinished (access : Access) : Bool := !access.immutable && !access.makesDirectory

/-- Whether the right to change the file can be claimed, be it for nothing. -/
def canClaim (access : Access) : Bool :=
  access.permission != .readOnly || access.unlocked || access.backing == .lockless

/-- The bytes that the head of a record of unfinished changes has at least. -/
def recordBlock (access : Access) : Nat := if access.sparing then 512 else 4096

end Access

namespace Address

/-- The byte of a sign in the first half of the character table. -/
def sign (character : Char) : UInt8 := UInt8.ofNat character.toNat

def hexDigit? (byte : UInt8) : Option Nat := Token.hexDigit? (Char.ofNat byte.toNat)

def byteOf? (high low : UInt8) : Option UInt8 := do
  let high ← hexDigit? high
  let low ← hexDigit? low
  return UInt8.ofNat (high * 16 + low)

/-- Replaces the escapes of a part by their bytes.  A zero byte ends the part. -/
def unescape : PathBytes → PathBytes
  | byte :: high :: low :: rest =>
      if byte = sign '%' then
        match byteOf? high low with
        | some value => if value = 0 then [] else value :: unescape rest
        | none => byte :: unescape (high :: low :: rest)
      else byte :: unescape (high :: low :: rest)
  | part => part

/-- Cuts bytes at the first occurrence of a sign, which belongs to neither part. -/
def cut (character : Char) (part : PathBytes) : PathBytes × PathBytes :=
  (part.takeWhile (· != sign character), (part.dropWhile (· != sign character)).drop 1)

/-- An option with its value, which is empty when none is given. -/
abbrev Setting := PathBytes × PathBytes

def setting? (part : PathBytes) : Option Setting :=
  let (name, value) := cut '=' part
  if (unescape name).isEmpty then none else some (unescape name, unescape value)

def settings (query : PathBytes) : List Setting :=
  (query.splitOn (sign '&')).filterMap setting?

def first? (settings : List Setting) (name : String) : Option PathBytes :=
  (settings.find? fun setting => setting.1 == Path.bytes name).map Prod.snd

def permission? (name : PathBytes) : Option Permission :=
  if name = Path.bytes "ro" then some .readOnly
  else if name = Path.bytes "rw" then some .readWrite
  else if name = Path.bytes "rwc" then some .create
  else if name = Path.bytes "memory" then some .memory
  else none

/-- Applies an option to the permission.  The cache may be shared or private,
which makes no difference to a single user. -/
def restrict? (present : Permission) (setting : Setting) : Option Permission :=
  if setting.1 = Path.bytes "mode" then
    match permission? setting.2 with
    | some next => if present.admits next then some next else none
    | none => none
  else if setting.1 = Path.bytes "cache" then
    if setting.2 = Path.bytes "shared" ∨ setting.2 = Path.bytes "private" then some present
    else none
  else some present

def backing? (name : PathBytes) : Option Backing :=
  if name = Path.bytes "unix" then some .shared
  else if name = Path.bytes "unix-excl" then some .exclusive
  else if name = Path.bytes "unix-none" then some .lockless
  else if name = Path.bytes "unix-dotfile" then some .lockDirectory
  else if name = Path.bytes "memdb" then some .memory
  else none

def decimalDigit? (byte : UInt8) : Option Nat :=
  (hexDigit? byte).filter (· < 10)

/-- The number at the front of some bytes, in the base whose digits are given. -/
def leadingNumber (base : Nat) (digit? : UInt8 → Option Nat) : PathBytes → Nat → Nat
  | [], value => value
  | byte :: rest, value =>
      match digit? byte with
      | some digit => leadingNumber base digit? rest (value * base + digit)
      | none => value

/-- The number that a value starts with, if it starts with a digit.  It is zero
when it does not fit a signed word of 32 bits. -/
def numberOf? (value : PathBytes) : Option Nat :=
  match value with
  | [] => none
  | first :: rest =>
      if (decimalDigit? first).isNone then none
      else
        let amount :=
          match rest with
          | letter :: digits =>
              if first = sign '0' ∧ (letter = sign 'x' ∨ letter = sign 'X') then
                leadingNumber 16 hexDigit? digits 0
              else leadingNumber 10 decimalDigit? value 0
          | [] => leadingNumber 10 decimalDigit? value 0
        some (if amount < 2147483648 then amount else 0)

def small (byte : UInt8) : UInt8 :=
  if sign 'A' ≤ byte && byte ≤ sign 'Z' then byte + 32 else byte

/-- Whether a value switches an option on: a number whose lowest byte is not
zero, or a word. -/
def isOn (value : PathBytes) : Bool :=
  match numberOf? value with
  | some amount => amount % 256 != 0
  | none => [Path.bytes "on", Path.bytes "yes", Path.bytes "true"].contains (value.map small)

/-- Whether a value switches an option off: a number whose lowest byte is zero,
or a word. -/
def isOff (value : PathBytes) : Bool :=
  match numberOf? value with
  | some amount => amount % 256 == 0
  | none => [Path.bytes "off", Path.bytes "no", Path.bytes "false"].contains (value.map small)

def switched (settings : List Setting) (name : String) : Bool :=
  (first? settings name).any isOn

def access? (file : PathBytes) (settings : List Setting) : Option Access := do
  let permission ← settings.foldlM restrict? Permission.create
  let backing ← backing? ((first? settings.reverse "vfs").getD (Path.bytes "unix"))
  return {
    file, permission, backing
    immutable := switched settings "immutable"
    unlocked := switched settings "nolock"
    rightsOf := first? settings "modeof"
    sparing := !(first? settings "psow").any isOff }

/-- What follows the name of the computer, which must be this one. -/
def withoutHost? : PathBytes → Option PathBytes
  | first :: second :: rest =>
      if first = Path.slash ∧ second = Path.slash then
        let host := rest.takeWhile (· != Path.slash)
        if host.isEmpty ∨ host = Path.bytes "localhost" then
          some (rest.dropWhile (· != Path.slash))
        else none
      else some (first :: second :: rest)
  | rest => some rest

def parse? (address : String) : Option Access :=
  let bytes := Path.bytes address
  let scheme := Path.bytes "file:"
  if scheme.isPrefixOf bytes then
    match withoutHost? (bytes.drop scheme.length) with
    | none => none
    | some rest =>
        let (file, query) := cut '?' (cut '#' rest).1
        access? (unescape file) (settings query)
  else some { file := bytes }

end Address

end BlockStage
