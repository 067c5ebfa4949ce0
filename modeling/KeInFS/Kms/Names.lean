import KeInFS.Control.Records

namespace KeInFS

open List

/-- The Unicode White_Space property, as str::trim uses it. -/
def isWhiteSpace (c : Char) : Bool :=
  let n := c.toNat
  (0x9 ≤ n && n ≤ 0xD) || n == 0x20 || n == 0x85 || n == 0xA0 || n == 0x1680 ||
    (0x2000 ≤ n && n ≤ 0x200A) || n == 0x2028 || n == 0x2029 || n == 0x202F || n == 0x205F || n == 0x3000

def splitSlash (path : String) : List String :=
  (path.toList.splitOn '/').map String.ofList

def validateEntryName (name : String) : Except Status Unit :=
  if name = "" then .error (.invalidArgument "entry name must not be empty")
  else if name.toList.contains '/' then
    .error (.invalidArgument "entry names are single path components and may not contain '/'")
  else if name = "." ∨ name = ".." then .error (.invalidArgument "entry names may not be '.' or '..'")
  else .ok ()

def normalizeParts : List String → Except Status (List String)
  | [] => .ok []
  | part :: parts => do
    if part = "" ∨ part = "." then normalizeParts parts
    else if part = ".." then .error (.invalidArgument "path traversal with '..' is not allowed")
    else
      validateEntryName part
      let rest ← normalizeParts parts
      return part :: rest

def normalizeHierarchyPath (path : String) : Except Status String :=
  if path.toList.all isWhiteSpace then .ok ""
  else (normalizeParts (splitSlash path)).map fun parts => "/".intercalate parts

def normalizeObjectKey (path : String) : Except Status String := normalizeHierarchyPath path

def joinPath (front name : String) : String :=
  if front = "" then name else s!"{front}/{name}"

/-- The last component of a key (`rsplit('/').next()`). -/
def objectName (key : String) : String := (splitSlash key).getLastD key

/-- Everything before the last '/' of a key (`rsplit_once('/')`), none when it has no '/'. -/
def parentKey (key : String) : Option String :=
  match splitSlash key with
  | [] => none
  | [_] => none
  | parts => some ("/".intercalate parts.dropLast)

/-- One level of the auto-create walk for a slashed object key. -/
structure AutoCreateLevel where
  segment : String
  levelPrefix : String
  levelPath : String
  deterministicId : String
  deriving DecidableEq, Repr

def autoCreateLevelsFrom (bucketEntryId bucketPath : String) : String → List String → List AutoCreateLevel
  | _, [] => []
  | front, segment :: segments =>
    if segment = "" then autoCreateLevelsFrom bucketEntryId bucketPath front segments
    else
      let levelPrefix := if front = "" then segment else s!"{front}/{segment}"
      ⟨segment, levelPrefix, joinPath bucketPath levelPrefix, s!"{bucketEntryId}::{levelPrefix}"⟩ ::
        autoCreateLevelsFrom bucketEntryId bucketPath levelPrefix segments

def autoCreateLevels (bucketEntryId bucketPath parentKey : String) : List AutoCreateLevel :=
  autoCreateLevelsFrom bucketEntryId bucketPath "" (splitSlash parentKey)

def formatVersionId (objectId objectVersion : Nat) : String :=
  toString objectId ++ ":" ++ toString objectVersion

def splitOnce (sep : Char) : List Char → Option (List Char × List Char)
  | [] => none
  | c :: cs => if c = sep then some ([], cs) else (splitOnce sep cs).map fun p => (c :: p.1, p.2)

/-- str::parse for u32: a leading '+' is accepted, so are leading zeros. -/
def parseU32 (chars : List Char) : Option Nat :=
  let digits : List Char := match chars with
    | '+' :: rest => rest
    | _ => chars
  let n : Nat := digits.foldl (fun n c => 10 * n + (c.toNat - 48)) 0
  if digits ≠ [] ∧ digits.all Char.isDigit = true ∧ n < 2 ^ 32 then some n else none

/-- Canonical spellings only: the raw string keys the reverse log, the parsed integers key the
markers, and the two keyspaces must name the same version. -/
def parseVersionIdParts (versionId : String) : Except Status (Nat × Nat) :=
  match (splitOnce ':' versionId.toList).bind fun parts =>
    (parseU32 parts.1).bind fun objectId =>
      (parseU32 parts.2).bind fun version =>
        if formatVersionId objectId version = versionId then some (objectId, version) else none with
  | some parts => .ok parts
  | none => .error (.invalidArgument
      s!"manifest version_id `{versionId}` is not in canonical object_id:version form")

theorem parseVersionIdParts_canonical {versionId : String} {objectId version : Nat}
    (h : parseVersionIdParts versionId = .ok (objectId, version)) :
    versionId = formatVersionId objectId version := by
  unfold parseVersionIdParts at h
  split at h
  next hp =>
    cases h
    obtain ⟨_, _, hp⟩ := Option.bind_eq_some_iff.mp hp
    obtain ⟨o, _, hp⟩ := Option.bind_eq_some_iff.mp hp
    obtain ⟨v, _, hp⟩ := Option.bind_eq_some_iff.mp hp
    split at hp
    next he =>
      cases hp
      exact he.symm
    · cases hp
  · cases h

theorem colon_not_mem_toDigits (n : Nat) : ':' ∉ Nat.toDigits 10 n := by
  intro h
  have := Nat.isDigit_of_mem_toDigits (by decide) (by decide) h
  simp [Char.isDigit] at this

theorem formatVersionId_toList (o v : Nat) :
    (formatVersionId o v).toList = Nat.toDigits 10 o ++ ':' :: Nat.toDigits 10 v := by
  simp only [formatVersionId, String.toList_append, Nat.toString_eq_repr, Nat.toList_repr,
    show ":".toList = [':'] from rfl, append_assoc, singleton_append]

theorem splitOnce_append {sep : Char} {xs ys : List Char} (h : sep ∉ xs) :
    splitOnce sep (xs ++ sep :: ys) = some (xs, ys) := by
  induction xs with
  | nil => simp [splitOnce]
  | cons c xs ih =>
    obtain ⟨hc, hxs⟩ := not_or.mp (fun hm => h (mem_cons.mpr hm))
    simp only [cons_append, splitOnce, if_neg (Ne.symm hc), ih hxs, Option.map_some]

theorem parseU32_toDigits {n : Nat} (h : n < 2 ^ 32) : parseU32 (Nat.toDigits 10 n) = some n := by
  have hdigits : ∀ c ∈ Nat.toDigits 10 n, c.isDigit = true :=
    fun c hc => Nat.isDigit_of_mem_toDigits (by decide) (by decide) hc
  have hvalue : (Nat.toDigits 10 n).foldl (fun n c => 10 * n + (c.toNat - 48)) 0 = n :=
    Nat.ofDigitChars_toDigits (by decide) (by decide)
  have hne : Nat.toDigits 10 n ≠ [] := Nat.toDigits_ne_nil
  generalize Nat.toDigits 10 n = digits at hdigits hvalue hne
  unfold parseU32
  split
  · have hplus := hdigits '+' mem_cons_self
    simp [Char.isDigit] at hplus
  dsimp only
  rw [hvalue, if_pos ⟨hne, all_eq_true.mpr hdigits, h⟩]

theorem formatVersionId_injective {o v o' v' : Nat}
    (h : formatVersionId o v = formatVersionId o' v') : o = o' ∧ v = v' := by
  have hl := congrArg String.toList h
  rw [formatVersionId_toList, formatVersionId_toList] at hl
  obtain ⟨ho, _, hv⟩ := (append_cons_inj_of_notMem (colon_not_mem_toDigits o)
    (colon_not_mem_toDigits v)).mp hl
  refine ⟨Nat.repr_injective ?_, Nat.repr_injective ?_⟩
  · simp only [Nat.repr, ho]
  · simp only [Nat.repr, hv]

end KeInFS
