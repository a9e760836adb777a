/-
Module: GhostPour.Shares.MeetingShares
Layer: Model
Purpose: The rows and the files of `app/services/meeting_shares.py`. A share is a row and an archive in
  the share directory; the routes of its page put audio sidecars and preview cards beside the archive;
  `revoke` and `purge_expired` delete. Every file operation succeeds, the bytes are left out, and a
  storage path is its name in the directory.
Trusted boundary: human-reviewed spec
Main exports: ShareId, Moment, ShareRow, ShareStore, isLive, createShare, shareAudio, shareCard, revoke,
  purgeExpired, ShareAction, shareMachine
-/
import GhostPour.Library.IsoText
import GhostPour.Library.Machine
import Mathlib.Data.Finset.Basic

namespace GhostPour.Shares

/-! ### Names -/

/-- A hexadecimal digit as `token_hex` writes it. -/
def isHexDigit (c : Nat) : Bool := (48 ≤ c && c ≤ 57) || (97 ≤ c && c ≤ 102)

/-- What `secrets.token_hex(8)` returns: sixteen hexadecimal digits. -/
structure ShareId where
  text : PyStr
  length : text.length = 16
  hex : text.all isHexDigit = true
deriving DecidableEq

/-- `f"{share_id}.bin"`. -/
def archiveName (id : ShareId) : PyStr := id.text ++ py ".bin"

/-- `f"{storage_path}.audio{n}.m4a"`. -/
def audioSidecar (storagePath : PyStr) (n : Nat) : PyStr :=
  storagePath ++ (py ".audio" ++ (strOfNat n ++ py ".m4a"))

/-- `f"{storage_path}.card.v{CARD_VERSION}.png"`; the version changes with the deploys. -/
def cardSidecar (storagePath : PyStr) (version : Nat) : PyStr :=
  storagePath ++ (py ".card" ++ (py ".v" ++ (strOfNat version ++ py ".png")))

/-- Whether a name matches the pattern `front*back`, neither of which has a wildcard of its own. -/
def globMatches (front back name : PyStr) : Bool :=
  startsWith front name && endsWith back (name.drop front.length)

/-! ### Times -/

/-- A time that `datetime` can hold. -/
@[ext] structure Moment where
  instant : Instant
  dated : (DateTime.ofInstant instant).Dated

instance : DecidableEq Moment := fun _ _ => decidable_of_iff _ Moment.ext_iff.symm

/-- `isoformat()`. -/
def Moment.isoText (t : Moment) : PyStr := (DateTime.ofInstant t.instant).isoformat

/-- `t + timedelta(days=days)`, which overflows before the first year and past the last. -/
def Moment.addDays (t : Moment) (days : Int) : Option Moment :=
  let shifted : Int := t.instant + days * microsPerDay
  if shifted < 0 then none
  else if dated : (DateTime.ofInstant shifted.toNat).Dated then some ⟨_, dated⟩
  else none

/-! ### The store -/

/-- What the code reads of a row of `meeting_shares`. -/
structure ShareRow where
  id : ShareId
  token : PyStr
  storagePath : PyStr
  expiresAt : Moment
  revokedAt : Option Moment
deriving DecidableEq

/-- The clock, the table, and the names in the share directory. -/
structure ShareStore where
  now : Moment
  rows : List ShareRow
  files : Finset PyStr

/-- No share yet. -/
def ShareStore.empty (now : Moment) : ShareStore := ⟨now, [], ∅⟩

/-- `is_live` of a row. -/
def isLive (now : Moment) (row : ShareRow) : Bool :=
  row.revokedAt.isNone && decide (now.instant < row.expiresAt.instant)

/-- Write a file. -/
def ShareStore.write (name : PyStr) (s : ShareStore) : ShareStore := { s with files := insert name s.files }

/-- Whether the table refuses a row: the id is the primary key and the token is unique. -/
def ShareStore.taken (id : ShareId) (token : PyStr) (s : ShareStore) : Bool :=
  s.rows.any fun row => decide (row.id = id) || row.token == token

/-- `create_share`: the archive is written before the row. -/
def createShare (id : ShareId) (token : PyStr) (expiryDays : Int) (s : ShareStore) : ShareStore :=
  let written := s.write (archiveName id)
  match s.now.addDays expiryDays with
  | none => written
  | some expires =>
      if s.taken id token then written
      else { written with rows := s.rows ++ [⟨id, token, archiveName id, expires, none⟩] }

/-- `share_by_token`. -/
def shareByToken (token : PyStr) (s : ShareStore) : Option ShareRow :=
  s.rows.find? fun row => row.token == token

/-- Put a file beside the archive of a live share, unless it is there or cannot be made. -/
def putBeside (token : PyStr) (name : PyStr → PyStr) (made : Bool) (s : ShareStore) : ShareStore :=
  match shareByToken token s with
  | none => s
  | some row =>
      if isLive s.now row && decide (name row.storagePath ∉ s.files) && made then
        s.write (name row.storagePath)
      else s

/-- `share_audio`: the archive has an entry `n` that inflates, or it has not. -/
def shareAudio (token : PyStr) (n : Nat) (inflates : Bool) : ShareStore → ShareStore :=
  putBeside token (audioSidecar · n) inflates

/-- `share_card`. -/
def shareCard (token : PyStr) (version : Nat) : ShareStore → ShareStore :=
  putBeside token (cardSidecar · version) true

/-- `Path(path).unlink()`; the empty path is the current directory, whose error is logged. -/
def unlink (path : PyStr) (files : Finset PyStr) : Finset PyStr :=
  if path = [] then files else files.erase path

/-- `revoke`. -/
def revoke (id : ShareId) (s : ShareStore) : ShareStore :=
  match s.rows.find? fun row => row.id = id with
  | none => s
  | some row =>
      { s with
        rows := s.rows.map fun r =>
          if r.id = id then { r with storagePath := [], revokedAt := some s.now } else r
        files := unlink row.storagePath s.files }

/-- `expires_at <= ? OR revoked_at IS NOT NULL`, on texts. -/
def isDead (now : Moment) (row : ShareRow) : Bool :=
  decide (row.expiresAt.isoText ≤ now.isoText) || row.revokedAt.isSome

/-- The files that go with a storage path: the archive and the two globs. -/
def goesWith (path name : PyStr) : Bool :=
  name == path || globMatches (path ++ py ".audio") (py ".m4a") name ||
    globMatches (path ++ py ".card") (py ".png") name

/-- What the sweep leaves of the files for one row. -/
def sweepRow (files : Finset PyStr) (row : ShareRow) : Finset PyStr :=
  if row.storagePath = [] then files
  else files.filter fun name => goesWith row.storagePath name = false

/-- `purge_expired`. -/
def purgeExpired (s : ShareStore) : ShareStore :=
  let dead := s.rows.filter (isDead s.now)
  { s with
    rows := s.rows.filter fun row => row.id ∉ dead.map ShareRow.id
    files := dead.foldl sweepRow s.files }

/-! ### Runs -/

/-- What happens to the shares. -/
inductive ShareAction where
  | create (id : ShareId) (token : PyStr) (expiryDays : Int)
  | audio (token : PyStr) (n : Nat) (inflates : Bool)
  | card (token : PyStr) (version : Nat)
  | revoke (id : ShareId)
  | purge
  | wait (till : Moment)

/-- One action; a time that has passed is not waited for. -/
def ShareAction.apply : ShareAction → ShareStore → ShareStore
  | .create id token expiryDays, s => createShare id token expiryDays s
  | .audio token n inflates, s => shareAudio token n inflates s
  | .card token version, s => shareCard token version s
  | .revoke id, s => Shares.revoke id s
  | .purge, s => purgeExpired s
  | .wait till, s => if s.now.instant ≤ till.instant then { s with now := till } else s

/-- The shares as a machine. -/
def shareMachine : Machine ShareStore ShareAction := ⟨fun a s => some (a.apply s)⟩

end GhostPour.Shares
