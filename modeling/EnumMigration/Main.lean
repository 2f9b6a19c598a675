import EnumMigration.Command.Setup
import EnumMigration.Time.Unix
import Std.Time.DateTime.Timestamp

/-!
# The program

The host of the command line: the disk, the clock and the console of the machine.
-/

namespace EnumMigration

/-- The fault behind an error of the system. -/
def DiskFault.ofSystem : IO.Error → DiskFault
  | .noFileOrDirectory .. => .absent
  | .alreadyExists .. => .present
  | .inappropriateType _ code _ => if code = 21 then .isDirectory else .notDirectory
  | e => .other (toString e)

/-- Takes an action on a path, and reports how the system refuses it. -/
def attempt {α : Type} (action : DiskAction) (path : Path) (body : IO α) : IO (Except DiskError α) := do
  match ← body.toBaseIO with
  | .ok value => return .ok value
  | .error e => return .error ⟨action, path, .ofSystem e⟩

/-- The disk of the machine.  Whether a path leads to something is asked without opening it, since
what is there may not be readable. -/
def machineDisk : Disk IO where
  holds path := do
    match ← (IO.FS.realPath path.text).toBaseIO with
    | .ok _ => return true
    | .error _ => return false
  read path := do
    match ← attempt .openFile path (IO.FS.Handle.mk path.text .read) with
    | .error e => return .error e
    | .ok handle =>
      match ← attempt .readFile path handle.readBinToEnd with
      | .error e => return .error e
      | .ok bytes =>
        match String.fromUTF8? bytes with
        | some text => return .ok text
        | none => return .error ⟨.readFile, path, .notText⟩
  write path bytes := attempt .createFile path (IO.FS.writeBinFile path.text bytes)
  makeDirs path := attempt .createDirectory path
    (if path.text.isEmpty then return () else IO.FS.createDirAll path.text)

/-- The version 4 identifier with the given sixteen random bytes: version and variant overwrite six
of the bits, and hyphens part the digits into groups. -/
def randomId (bytes : List UInt8) : String :=
  let marked := bytes.mapIdx fun i byte =>
    if i = 6 then byte &&& 0x0f ||| 0x40 else if i = 8 then byte &&& 0x3f ||| 0x80 else byte
  let digits := marked.flatMap fun byte =>
    [Nat.digitChar (byte.toNat / 16), Nat.digitChar (byte.toNat % 16)]
  String.ofList <| ['-'].intercalate
    [digits.take 8, (digits.drop 8).take 4, (digits.drop 12).take 4, (digits.drop 16).take 4,
      digits.drop 20]

example : randomId (List.replicate 16 0xff) = "ffffffff-ffff-4fff-bfff-ffffffffffff" := by
  decide +kernel

/-- The clock of the machine.  Runs are named by random bytes. -/
def machineClock : Clock IO where
  now := do return .ofNanos (← Std.Time.Timestamp.now).toNanosecondsSinceUnixEpoch.val.toNat
  freshId := do return randomId (← IO.getRandomBytes 16).toList

/-- Prints a reply and returns its exit code. -/
def Reply.print (reply : Reply) (usage : String) : IO UInt32 := do
  match reply with
  | .help => IO.print usage
  | .misuse => IO.eprint usage
  | .output _ stdout stderr =>
    IO.eprint stderr
    IO.print stdout
  return UInt32.ofNat reply.code

/-- The machine. -/
def machine : Host IO := ⟨machineDisk, machineClock⟩

/-- The program of the setup commands. -/
def setupMain (arguments : List String) : IO UInt32 := do
  (← machine.setupLine arguments).print (SetupCommand.program.usage "setup")

end EnumMigration

/-- The program. -/
def main (arguments : List String) : IO UInt32 := do
  (← EnumMigration.machine.commandLine arguments).print
    (EnumMigration.Command.program.usage EnumMigration.thisTool.name)
