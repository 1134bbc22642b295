import ViewWriter.Table

/-!
Archives in the ZIP format, with every file stored as it is.
-/

namespace ViewWriter.Archive

abbrev Bytes := List UInt8

/-- The last `width` bytes of a number, the lowest first. -/
def number : Nat → Nat → Bytes
  | 0, _ => []
  | width + 1, n => UInt8.ofNat (n % 256) :: number width (n / 256)

def numbers (fields : List (Nat × Nat)) : Bytes := fields.flatMap fun e => number e.1 e.2

/-- The divisor of the checksum, its highest power in the lowest bit. -/
def divisor : UInt32 := 0xEDB88320

/-- Takes `bits` bits into the checksum. -/
def shift : Nat → UInt32 → UInt32
  | 0, sum => sum
  | bits + 1, sum => shift bits (if sum &&& 1 == 1 then (sum >>> 1) ^^^ divisor else sum >>> 1)

def checksum (bytes : Bytes) : Nat :=
  (bytes.foldl (fun sum b => shift 8 (sum ^^^ b.toUInt32)) 0xFFFFFFFF ^^^ 0xFFFFFFFF).toNat

/-- A file in an archive. -/
structure Member where
  name : Bytes
  content : Bytes

def Member.ofText (name content : String) : Member := ⟨name.toUTF8.toList, content.toUTF8.toList⟩

namespace Member

/-- The version that is needed, text names in UTF-8, no compression, and the first day of the
calendar. -/
def common (m : Member) : List (Nat × Nat) := [
  (2, 20), (2, 0x0800), (2, 0), (2, 0), (2, 0x0021), (4, checksum m.content),
  (4, m.content.length), (4, m.content.length), (2, m.name.length), (2, 0)]

/-- The file with its header. -/
def record (m : Member) : Bytes := numbers ((4, 0x04034B50) :: m.common) ++ m.name ++ m.content

/-- The entry of the file in the directory; its record begins at `place`. -/
def directoryEntry (m : Member) (place : Nat) : Bytes :=
  numbers ([(4, 0x02014B50), (2, 0x0314)] ++ m.common
    ++ [(2, 0), (2, 0), (2, 0), (4, 0x81A40000), (4, place)]) ++ m.name

end Member

/-- The directory of records that follow each other from `place` on. -/
def directory (place : Nat) : List Member → Bytes
  | [] => []
  | m :: rest => m.directoryEntry place ++ directory (place + m.record.length) rest

def records (members : List Member) : Bytes := members.flatMap Member.record

/-- The end of an archive, which tells where the directory is. -/
def ending (count size place : Nat) : Bytes :=
  numbers [(4, 0x06054B50), (2, 0), (2, 0), (2, count), (2, count), (4, size), (4, place), (2, 0)]

def ofMembers (members : List Member) : Bytes :=
  let body := records members
  let listing := directory 0 members
  body ++ listing ++ ending members.length listing.length body.length

def ofTexts (files : Table String) : Bytes := ofMembers (files.map fun e => .ofText e.1 e.2)

theorem number_length (width n : Nat) : (number width n).length = width := by
  induction width generalizing n with
  | zero => rfl
  | succ width ih => simp [number, ih]

theorem directory_append (place : Nat) (xs ys : List Member) :
    directory place (xs ++ ys) = directory place xs ++ directory (place + (records xs).length) ys := by
  induction xs generalizing place with
  | nil => rfl
  | cons m rest ih => simp [directory, records, ih, Nat.add_assoc]

end ViewWriter.Archive
