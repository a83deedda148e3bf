import Mathlib.Tactic.IntervalCases
import Vwarp.Go.Files

/-!
# The stored identity

`LoadOrCreateIdentity` loads the identity of the device, and makes a new one if that fails, for
whatever reason: it removes the directory, registers a new device and saves it.  It saves the
identity once more when the account gets another license.  A file that is saved is emptied before
it is written.

Every operation on files may fail, and every answer of the API is possible; both are the `Faults` of
a call.  `identity_survives_iff` says which of them leave an identity that could be loaded before a
call that fails where it can be loaded after it, and `stored_identity_lost` is a device that is lost
to a failing request, and another that is lost to a full disk.

## The format of the file

Of `encoding/json` only what it guarantees for a document that `Encode` has written is used: the
document is an object and a newline, which can be read back, and no front of the object can.  The
strings of an identity come out of `json.Unmarshal`, or are base64, and so they are valid UTF-8.
-/

namespace Vwarp.Warp

open Vwarp.Go

/-- `IdentityAccount`; `other` stands for the fields that are only stored. -/
structure IdentityAccount (α : Type) where
  license : String
  other : α

/-- `Identity`, of whose peers only the number is used here. -/
structure Identity (α : Type) where
  privateKey : String
  account : IdentityAccount α
  peers : Nat
  token : String
  id : String
  other : α

/-- What `encoding/json` makes of an identity. -/
structure Format (α β : Type) where
  /-- The object, as `Encode` writes it. -/
  text : Identity α → List β
  newline : β
  /-- `json.Unmarshal`. -/
  decode : List β → Option (Identity α)
  decode_text (i : Identity α) : decode (text i) = some i
  decode_text_newline (i : Identity α) : decode (text i ++ [newline]) = some i
  decode_take (i : Identity α) (n : Nat) : n < (text i).length → decode ((text i).take n) = none
  decode_nil : decode [] = none

/-- The document that `Encode` writes. -/
def Format.encode {α β : Type} (F : Format α β) (i : Identity α) : List β :=
  F.text i ++ [F.newline]

inductive Err
  | os (text : Bytes)
  | api (text : Bytes)
  | notExist
  | json
  /-- `errors.New("identity contains 0 peers")`. -/
  | zeroPeers
deriving DecidableEq

/-- The answers of the API to another license: the error of `UpdateAccount`, whose account is not
used, and what `GetAccount` returns. -/
structure LicenseAnswers (α : Type) where
  updateAccount : Option Bytes
  getAccount : Except Bytes (IdentityAccount α)

/-- What `CreateIdentity` is given. -/
structure CreationAnswers (α : Type) where
  generatePrivateKey : Except Bytes String
  register : Except Bytes (Identity α)
  license : LicenseAnswers α

/-- What happens during a call of `LoadOrCreateIdentity`. -/
structure Faults (α : Type) where
  stat : Option Bytes
  read : Option Bytes
  /-- The error of `os.RemoveAll`, and the files that it has not removed. -/
  removeAll : Option (Bytes × (Path → Bool))
  mkdirAll : Option Bytes
  creation : CreationAnswers α
  save : FileFaults
  license : LicenseAnswers α
  saveLicense : FileFaults

section Code

variable {α β : Type} (F : Format α β) (path : Path)

/-- `if err != nil { return nil, err }`, and what comes after it. -/
def andThen {γ : Type} (r : Files β × Except Err Unit) (k : Files β → Files β × Except Err γ) :
    Files β × Except Err γ :=
  match r with
  | (files, .error err) => (files, .error err)
  | (files, .ok ()) => k files

/-- `filepath.Join(path, identityFile)`. -/
def identityPath : Path := path ++ [str "wgcf-identity.json"]

/-- `saveIdentity`. -/
def saveIdentity (faults : FileFaults) (a : Identity α) (files : Files β) :
    Files β × Except Err Unit :=
  match files.fill faults (identityPath path) (F.encode a) with
  | (files, some err) => (files, .error (.os err))
  | (files, none) => (files, .ok ())

/-- `LoadIdentity`, with the errors of `os.Stat` and `os.ReadFile`. -/
def loadIdentity (stat read : Option Bytes) (files : Files β) : Except Err (Identity α) :=
  match stat with
  | some err => .error (.os err)
  | none =>
    match files (identityPath path) with
    | none => .error .notExist
    | some cells =>
      match read with
      | some err => .error (.os err)
      | none =>
        match F.decode cells with
        | none => .error .json
        | some i => if i.peers < 1 then .error .zeroPeers else .ok i

/-- `UpdateAccount` and then `GetAccount`. -/
def changeLicense (answers : LicenseAnswers α) : Except Err (IdentityAccount α) :=
  match answers.updateAccount with
  | some err => .error (.api err)
  | none =>
    match answers.getAccount with
    | .error err => .error (.api err)
    | .ok account => .ok account

/-- `CreateIdentity`. -/
def createIdentity (answers : CreationAnswers α) (license : String) : Except Err (Identity α) :=
  match answers.generatePrivateKey with
  | .error err => .error (.os err)
  | .ok privateKey =>
    match answers.register with
    | .error err => .error (.api err)
    | .ok i =>
      if license ≠ "" then
        match changeLicense answers.license with
        | .error err => .error err
        | .ok account => .ok { i with account := account, privateKey := privateKey }
      else .ok { i with privateKey := privateKey }

/-- The second half of `LoadOrCreateIdentity`, which sees to the license. -/
def updateLicense (faults : Faults α) (license : String) (i : Identity α) (files : Files β) :
    Files β × Except Err (Identity α) :=
  if license ≠ "" ∧ i.account.license ≠ license then
    match changeLicense faults.license with
    | .error err => (files, .error err)
    | .ok account =>
      andThen (saveIdentity F path faults.saveLicense { i with account := account } files)
        fun files ↦ (files, .ok { i with account := account })
  else (files, .ok i)

/-- `LoadOrCreateIdentity`: the files afterwards, and what is returned. -/
def loadOrCreateIdentity (faults : Faults α) (license : String) (files : Files β) :
    Files β × Except Err (Identity α) :=
  match loadIdentity F path faults.stat faults.read files with
  | .ok i => updateLicense F path faults license i files
  | .error _ =>
    match faults.removeAll with
    | some (err, kept) => (files.removeAll path kept, .error (.os err))
    | none =>
      let files := files.removeAll path fun _ ↦ false
      match faults.mkdirAll with
      | some err => (files, .error (.os err))
      | none =>
        match createIdentity faults.creation license with
        | .error err => (files, .error err)
        | .ok i =>
          andThen (saveIdentity F path faults.save i files)
            fun files ↦ updateLicense F path faults license i files

end Code

/-! ## What a file holds -/

/-- The identity of the same device: its ID, token and private key. -/
def SameDevice {α : Type} (i j : Identity α) : Prop :=
  j.id = i.id ∧ j.token = i.token ∧ j.privateKey = i.privateKey

/-- An identity of the device that `LoadIdentity` takes. -/
def Present {α : Type} (stored i : Identity α) : Prop := 1 ≤ i.peers ∧ SameDevice stored i

section Survival

variable {α β : Type} {F : Format α β} {path : Path} {stored : Identity α}

def Stored (F : Format α β) (path : Path) (stored : Identity α) (files : Files β) : Prop :=
  ∃ i, loadIdentity F path none none files = .ok i ∧ SameDevice stored i

def Readable (F : Format α β) (stored : Identity α) (cells : List β) : Prop :=
  ∃ i, F.decode cells = some i ∧ Present stored i

variable {files : Files β} {i : Identity α}

/-- What is loaded is what the file holds. -/
theorem loadIdentity_eq_ok_iff :
    loadIdentity F path none none files = .ok i ↔
      ∃ cells, files (identityPath path) = some cells ∧ F.decode cells = some i ∧ 1 ≤ i.peers := by
  unfold loadIdentity
  cases files (identityPath path) with
  | none => simp
  | some cells =>
    cases hdecode : F.decode cells with
    | none => simp [hdecode]
    | some j =>
      by_cases hpeers : j.peers < 1
      · simp only [hdecode, hpeers, if_true, reduceCtorEq, Option.some.injEq, false_iff]
        rintro ⟨_, rfl, hj, hpeers'⟩
        cases hdecode.symm.trans hj
        omega
      · simp only [hdecode, hpeers, if_false, Except.ok.injEq, Option.some.injEq]
        constructor
        · rintro rfl
          exact ⟨cells, rfl, hdecode, by omega⟩
        · rintro ⟨_, rfl, hj, -⟩
          exact Option.some.inj (hdecode.symm.trans hj)

theorem stored_iff :
    Stored F path stored files ↔
      ∃ cells, files (identityPath path) = some cells ∧ Readable F stored cells := by
  constructor
  · rintro ⟨i, hload, hsame⟩
    obtain ⟨cells, hcells, hdecode, hpeers⟩ := loadIdentity_eq_ok_iff.mp hload
    exact ⟨cells, hcells, i, hdecode, hpeers, hsame⟩
  · rintro ⟨cells, hcells, i, hdecode, hpeers, hsame⟩
    exact ⟨i, loadIdentity_eq_ok_iff.mpr ⟨cells, hcells, hdecode, hpeers⟩, hsame⟩

theorem stored_put {cells : List β} :
    Stored F path stored (files.put (identityPath path) cells) ↔ Readable F stored cells := by
  rw [stored_iff]
  constructor
  · rintro ⟨_, hcells, hread⟩
    rw [Files.put_self] at hcells
    cases hcells
    exact hread
  · intro hread
    exact ⟨cells, Files.put_self .., hread⟩

theorem not_readable_nil : ¬Readable F stored [] := by
  rintro ⟨i, hdecode, -⟩
  exact Option.some_ne_none i (hdecode.symm.trans F.decode_nil)

variable {a : Identity α}

theorem readable_of_decode {cells : List β} (h : F.decode cells = some a) :
    Readable F stored cells ↔ Present stored a := by
  constructor
  · rintro ⟨i, hdecode, hpresent⟩
    cases h.symm.trans hdecode
    exact hpresent
  · intro hpresent
    exact ⟨a, h, hpresent⟩

theorem readable_encode : Readable F stored (F.encode a) ↔ Present stored a :=
  readable_of_decode (F.decode_text_newline a)

theorem readable_take {n : Nat} :
    Readable F stored ((F.encode a).take n) ↔ (F.text a).length ≤ n ∧ Present stored a := by
  unfold Format.encode
  rcases Nat.lt_trichotomy n (F.text a).length with hlt | rfl | hgt
  · rw [List.take_append_of_le_length (Nat.le_of_lt hlt)]
    constructor
    · rintro ⟨i, hdecode, -⟩
      exact absurd (hdecode.symm.trans (F.decode_take a n hlt)) (Option.some_ne_none i)
    · rintro ⟨hle, -⟩
      omega
  · rw [List.take_left, readable_of_decode (F.decode_text a)]
    exact (and_iff_right (Nat.le_refl _)).symm
  · have hall : (F.text a ++ [F.newline]).length ≤ n := by
      rw [List.length_append]
      exact hgt
    rw [List.take_of_length_le hall, readable_of_decode (F.decode_text_newline a)]
    exact (and_iff_right (Nat.le_of_lt hgt)).symm

/-! ## What a call leaves -/

/-- The device can be loaded after a call that fails. -/
def Survives {γ : Type} (F : Format α β) (path : Path) (stored : Identity α)
    (r : Files β × Except Err γ) : Prop :=
  ∀ err, r.2 = .error err → Stored F path stored r.1

variable {γ : Type}

@[simp] theorem survives_ok {x : γ} : Survives F path stored (files, .ok x) ↔ True := by
  simp [Survives]

@[simp] theorem survives_error {err : Err} :
    Survives (γ := γ) F path stored (files, .error err) ↔ Stored F path stored files := by
  simp [Survives]

variable {k : Files β → Files β × Except Err γ} {faults : FileFaults} {files' : Files β}

theorem survives_andThen {r : Files β × Except Err Unit} :
    Survives F path stored (andThen r k) ↔
      Survives F path stored r ∧
        ∀ files, r = (files, .ok ()) → Survives F path stored (k files) := by
  obtain ⟨files, err | ⟨⟩⟩ := r
  · simp [andThen]
  · simp [andThen]

/-- The faults of a save that leave the device: `kept` if the file is as it was, and `same` if
the identity that is saved is one of the device. -/
def Spares (F : Format α β) (faults : FileFaults) (a : Identity α) (kept same : Prop) : Prop :=
  match faults.create with
  | some (_, emptied) => emptied = false ∧ kept
  | none =>
    match faults.write with
    | some (_, n) => (F.text a).length ≤ n ∧ same
    | none => faults.close = none ∨ same

/-- The faults of a new license that leave the device; `same` if the identity is one of it. -/
def LicenseSpares (F : Format α β) (faults : Faults α) (license : String) (i : Identity α)
    (same : Prop) : Prop :=
  license ≠ "" ∧ i.account.license ≠ license →
    match faults.license.updateAccount, faults.license.getAccount with
    | none, .ok account => Spares F faults.saveLicense { i with account := account } same same
    | _, _ => same

/-- The answers of the API and the private key come to an identity. -/
def CreationAnswers.Give (answers : CreationAnswers α) (license : String) (i : Identity α) :
    Prop :=
  answers.generatePrivateKey = .ok i.privateKey ∧
    ∃ r, answers.register = .ok r ∧
      if license = "" then i = { r with privateKey := i.privateKey }
      else answers.license.updateAccount = none ∧
        answers.license.getAccount = .ok i.account ∧
        i = { r with privateKey := i.privateKey, account := i.account }

/-- The faults of a call that leave the device.  If the identity is loaded, all that can lose it
is the save of a new license.  Otherwise the directory is removed: either that fails and spares
the file, or all goes well until the new identity is saved, and where something fails from then
on, the new identity must be in the file and be one of the same device. -/
def Harmless (F : Format α β) (path : Path) (faults : Faults α) (license : String)
    (stored : Identity α) : Prop :=
  if faults.stat = none ∧ faults.read = none then LicenseSpares F faults license stored True
  else
    match faults.removeAll with
    | some (_, kept) => kept (identityPath path) = true
    | none =>
      faults.mkdirAll = none ∧ ∃ i, faults.creation.Give license i ∧
        Spares F faults.save i False (Present stored i) ∧
        (faults.save = .never → LicenseSpares F faults license i (Present stored i))

theorem survives_saveIdentity :
    Survives F path stored (saveIdentity F path faults a files) ↔
      Spares F faults a (Stored F path stored files) (Present stored a) := by
  obtain ⟨create, write, close⟩ := faults
  unfold saveIdentity Spares Files.fill
  rcases create with _ | ⟨err, emptied⟩
  · rcases write with _ | ⟨err, n⟩
    · cases close with
      | none => simp
      | some err => simp [stored_put, readable_encode]
    · simp only [survives_error, stored_put]
      exact readable_take
  · cases emptied with
    | true => simp [stored_put, not_readable_nil]
    | false => simp

theorem saveIdentity_eq_ok (h : saveIdentity F path faults a files = (files', .ok ())) :
    faults = .never ∧ files' = files.put (identityPath path) (F.encode a) := by
  obtain ⟨create, write, close⟩ := faults
  rcases create with _ | ⟨err, emptied⟩
  · rcases write with _ | ⟨err, n⟩
    · cases close with
      | none =>
        cases h
        exact ⟨rfl, rfl⟩
      | some err => cases h
    · cases h
  · cases h

variable {license : String}

/-- The license leaves the device exactly with the faults that spare it. -/
theorem survives_updateLicense {faults : Faults α} {same : Prop}
    (hfiles : Stored F path stored files ↔ same) (hpresent : Present stored i ↔ same) :
    Survives F path stored (updateLicense F path faults license i files) ↔
      LicenseSpares F faults license i same := by
  unfold updateLicense LicenseSpares changeLicense
  by_cases hneeded : license ≠ "" ∧ i.account.license ≠ license
  · rw [if_pos hneeded, forall_prop_of_true hneeded]
    rcases faults.license with ⟨_ | err, err | account⟩
    · simp only [survives_error, hfiles]
    · simp only [survives_andThen, survives_ok, implies_true, and_true]
      rw [survives_saveIdentity, hfiles]
      exact Iff.of_eq (congrArg (Spares F _ _ same) (propext hpresent))
    all_goals simp only [survives_error, hfiles]
  · rw [if_neg hneeded]
    simp [hneeded]

/-- `CreateIdentity` returns what its answers come to. -/
theorem createIdentity_eq_ok_iff {answers : CreationAnswers α} :
    createIdentity answers license = .ok i ↔ answers.Give license i := by
  obtain ⟨generatePrivateKey, register, updateAccount, getAccount⟩ := answers
  unfold createIdentity CreationAnswers.Give changeLicense
  rcases generatePrivateKey with err | privateKey
  · simp
  rcases register with err | r
  · simp
  by_cases hlicense : license = ""
  · simp only [hlicense]
    constructor
    · rintro h
      cases h
      simp
    · rintro ⟨hkey, r', hr, hi⟩
      cases hkey
      cases hr
      rw [hi]
      simp
  · rcases updateAccount with _ | err
    · rcases getAccount with err | account
      · simp [hlicense]
      · simp only [ne_eq, hlicense, not_false_eq_true, if_true, if_false]
        constructor
        · rintro h
          cases h
          simp
        · rintro ⟨hkey, r', hr, -, haccount, hi⟩
          cases hkey
          cases hr
          cases haccount
          rw [hi]
    · simp [hlicense]

/-- Without a fault of `os.Stat` or `os.ReadFile` the identity is loaded. -/
theorem loadIdentity_faults (stat read : Option Bytes)
    (hstored : loadIdentity F path none none files = .ok stored) :
    (stat = none ∧ read = none ∧ loadIdentity F path stat read files = .ok stored) ∨
      (¬(stat = none ∧ read = none) ∧
        ∃ err, loadIdentity F path stat read files = .error err) := by
  rcases stat with _ | err
  · rcases read with _ | err
    · exact .inl ⟨rfl, rfl, hstored⟩
    · obtain ⟨cells, hcells, -⟩ := loadIdentity_eq_ok_iff.mp hstored
      refine .inr ⟨by simp, .os err, ?_⟩
      simp [loadIdentity, hcells]
  · exact .inr ⟨by simp, .os err, rfl⟩

theorem stored_removeAll {kept : Path → Bool} (hhere : Stored F path stored files) :
    Stored F path stored (files.removeAll path kept) ↔ kept (identityPath path) = true := by
  have hleft : files.removeAll path kept (identityPath path) =
      if kept (identityPath path) then files (identityPath path) else none :=
    Files.removeAll_append ..
  rw [stored_iff, hleft]
  cases kept (identityPath path) with
  | true => simpa using stored_iff.mp hhere
  | false => simp

/-- A new identity leaves the device exactly if it gets as far as the file, and the faults that
come then spare it. -/
theorem survives_create {faults : Faults α} (hgone : ¬Stored F path stored files) :
    (Survives F path stored <|
        match createIdentity faults.creation license with
        | .error err => (files, .error err)
        | .ok i =>
          andThen (saveIdentity F path faults.save i files)
            fun files ↦ updateLicense F path faults license i files) ↔
      ∃ i, faults.creation.Give license i ∧ Spares F faults.save i False (Present stored i) ∧
        (faults.save = .never → LicenseSpares F faults license i (Present stored i)) := by
  simp only [← createIdentity_eq_ok_iff]
  cases createIdentity faults.creation license with
  | error err => simpa using hgone
  | ok i =>
    have hsaved : Stored F path stored (files.put (identityPath path) (F.encode i)) ↔
        Present stored i := stored_put.trans readable_encode
    simp only [Except.ok.injEq, exists_eq_left', survives_andThen, survives_saveIdentity,
      iff_false_intro hgone]
    refine and_congr_right fun _ ↦ ⟨fun h hnever ↦ ?_, fun h files' hsave ↦ ?_⟩
    · refine (survives_updateLicense hsaved Iff.rfl).mp (h _ ?_)
      rw [hnever]
      rfl
    · obtain ⟨hnever, rfl⟩ := saveIdentity_eq_ok hsave
      exact (survives_updateLicense hsaved Iff.rfl).mpr (h hnever)

/-- A stored identity survives a call that fails exactly if the faults are harmless. -/
theorem identity_survives_iff {faults : Faults α} {license : String} {files : Files β}
    (hstored : loadIdentity F path none none files = .ok stored) :
    Survives F path stored (loadOrCreateIdentity F path faults license files) ↔
      Harmless F path faults license stored := by
  have hpresent : Present stored stored := by
    obtain ⟨_, -, -, hpeers⟩ := loadIdentity_eq_ok_iff.mp hstored
    exact ⟨hpeers, rfl, rfl, rfl⟩
  have hhere : Stored F path stored files := ⟨stored, hstored, rfl, rfl, rfl⟩
  unfold loadOrCreateIdentity Harmless
  rcases loadIdentity_faults faults.stat faults.read hstored with
    ⟨hstat, hread, hload⟩ | ⟨hfault, err, hload⟩
  · rw [hload, if_pos ⟨hstat, hread⟩]
    exact survives_updateLicense (iff_true_intro hhere) (iff_true_intro hpresent)
  · rw [hload, if_neg hfault]
    rcases faults.removeAll with _ | ⟨err, kept⟩
    · -- the directory is gone, and with it the identity
      have hgone : ¬Stored F path stored (files.removeAll path fun _ ↦ false) := by
        rw [stored_removeAll hhere]
        exact Bool.false_ne_true
      cases faults.mkdirAll with
      | some err => simpa using hgone
      | none => simpa using survives_create hgone
    · exact survives_error.trans (stored_removeAll hhere)

/-! ## Calls that succeed -/

def Holds (F : Format α β) (path : Path) (files : Files β) (i : Identity α) : Prop :=
  ∃ cells, files (identityPath path) = some cells ∧ F.decode cells = some i

theorem holds_of_loadIdentity {stat read : Option Bytes}
    (h : loadIdentity F path stat read files = .ok i) : Holds F path files i := by
  unfold loadIdentity at h
  repeat' split at h
  all_goals cases h
  exact ⟨_, by assumption, by assumption⟩

theorem holds_andThen
    {x : γ} (h : andThen (saveIdentity F path faults a files) k = (files', .ok x)) :
    ∃ files₁, Holds F path files₁ a ∧ k files₁ = (files', .ok x) := by
  cases hsave : saveIdentity F path faults a files with
  | mk files₁ r =>
    rw [hsave] at h
    cases r with
    | error err => cases h
    | ok _ =>
      rw [(saveIdentity_eq_ok hsave).2] at h
      exact ⟨_, ⟨_, Files.put_self .., F.decode_text_newline a⟩, h⟩

theorem holds_updateLicense {faults : Faults α} {j : Identity α} (hi : Holds F path files i)
    (h : updateLicense F path faults license i files = (files', .ok j)) :
    Holds F path files' j := by
  unfold updateLicense at h
  repeat' split at h
  · cases h
  · obtain ⟨_, hj, h⟩ := holds_andThen h
    cases h
    exact hj
  · cases h
    exact hi

/-- **An identity that is returned can be loaded again, if and only if it has a peer**, whatever was
in the directory and whatever failed on the way. -/
theorem returned_identity_loads {faults : Faults α} {files' : Files β}
    (h : loadOrCreateIdentity F path faults license files = (files', .ok i)) :
    loadIdentity F path none none files' = .ok i ↔ 1 ≤ i.peers := by
  have hheld : Holds F path files' i := by
    unfold loadOrCreateIdentity at h
    repeat' split at h
    · exact holds_updateLicense (holds_of_loadIdentity ‹_›) h
    · cases h
    · cases h
    · cases h
    · obtain ⟨_, hi, h⟩ := holds_andThen h
      exact holds_updateLicense hi h
  obtain ⟨cells, hcells, hdecode⟩ := hheld
  rw [loadIdentity_eq_ok_iff]
  constructor
  · rintro ⟨_, -, -, hpeers⟩
    exact hpeers
  · intro hpeers
    exact ⟨cells, hcells, hdecode, hpeers⟩

end Survival

/-! ## Two devices that are lost -/

section Lost

inductive Token
  | opening
  | string (s : String)
  | number (n : Nat)
  | closing
  | newline

/-- A format with the values of the object one after the other, so that a write can be cut between
any two of them. -/
def tokens : Format Unit Token where
  text i := [.opening, .string i.privateKey, .opening, .string i.account.license, .closing,
    .number i.peers, .string i.token, .string i.id, .closing]
  newline := .newline
  decode
    | .opening :: .string privateKey :: .opening :: .string license :: .closing :: .number peers ::
        .string token :: .string id :: .closing :: rest =>
      match rest with
      | [] | [.newline] => some ⟨privateKey, ⟨license, ()⟩, peers, token, id, ()⟩
      | _ => none
    | _ => none
  decode_text _ := rfl
  decode_text_newline _ := rfl
  decode_take i n h := by
    change n < 9 at h
    interval_cases n <;> rfl
  decode_nil := rfl

def device : Identity Unit where
  privateKey := "private key"
  account := ⟨"", ()⟩
  peers := 1
  token := "token"
  id := "device"
  other := ()

/-- `path.Join(opts.CacheDir, "primary")`. -/
def primary : Path := [str "vwarp", str "primary"]

/-- The disk with the identity and nothing else. -/
def disk : Files Token :=
  Files.put (fun _ ↦ none) (identityPath primary) (tokens.encode device)

/-- Nothing fails, and the license is as it should be. -/
def wellDone : Faults Unit where
  stat := none
  read := none
  removeAll := none
  mkdirAll := none
  creation := ⟨.ok "key", .ok { device with id := "another" }, none, .ok ⟨"license", ()⟩⟩
  save := .never
  license := ⟨none, .ok ⟨"license", ()⟩⟩
  saveLicense := .never

/-- The identity cannot be read, and the API cannot be reached. -/
def unreachable : Faults Unit :=
  { wellDone with
    read := some (str "too many open files")
    creation := ⟨.ok "key", .error (str "connection refused"), none, .ok ⟨"license", ()⟩⟩ }

/-- The disk is full when `n` tokens of the new license are saved. -/
def diskFull (n : Nat) : Faults Unit :=
  { wellDone with saveLicense := ⟨none, some (str "no space left on device", n), none⟩ }

/-- The identity survives `Close` when that fails after the new license has been saved, and a write
that fails at the newline, but none that is cut inside the object. -/
theorem device_survives_iff :
    loadIdentity tokens primary none none disk = .ok device ∧
      Survives tokens primary device
        (loadOrCreateIdentity tokens primary
          { wellDone with saveLicense := ⟨none, none, some (str "input/output error")⟩ }
          "license" disk) ∧
      ∀ n, Survives tokens primary device
        (loadOrCreateIdentity tokens primary (diskFull n) "license" disk) ↔ 9 ≤ n := by
  refine ⟨rfl, (identity_survives_iff rfl).mpr fun _ ↦ .inr trivial, fun n ↦ ?_⟩
  have hnew : "license" ≠ "" ∧ device.account.license ≠ "license" := by decide
  rw [identity_survives_iff rfl]
  constructor
  · intro hharmless
    exact (hharmless hnew).1
  · intro hn _
    exact ⟨hn, trivial⟩

theorem new_identity_loads :
    ∃ files i, loadOrCreateIdentity tokens primary wellDone "license" (fun _ ↦ none) =
        (files, .ok i) ∧ i.id = "another" ∧
          loadIdentity tokens primary none none files = .ok i := by
  have h : loadOrCreateIdentity tokens primary wellDone "license" (fun _ ↦ none) = (_, .ok _) := rfl
  exact ⟨_, _, h, rfl, (returned_identity_loads h).mpr le_rfl⟩

/-- An identity that can be loaded, and cannot be after a call that fails. -/
theorem stored_identity_lost :
    loadIdentity tokens primary none none disk = .ok device ∧
      (loadOrCreateIdentity tokens primary unreachable "" disk).2 =
        .error (.api (str "connection refused")) ∧
      loadIdentity tokens primary none none
        (loadOrCreateIdentity tokens primary unreachable "" disk).1 = .error .notExist ∧
      (loadOrCreateIdentity tokens primary (diskFull 4) "license" disk).2 =
        .error (.os (str "no space left on device")) ∧
      loadIdentity tokens primary none none
        (loadOrCreateIdentity tokens primary (diskFull 4) "license" disk).1 = .error .json :=
  ⟨rfl, rfl, rfl, rfl, rfl⟩

end Lost

end Vwarp.Warp
