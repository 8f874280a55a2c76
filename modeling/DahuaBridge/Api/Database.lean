import Mathlib.Data.List.Nodup
import DahuaBridge.Manager.State

/-!
# The camera table and its requests

The table `cameras` of `app/main.py` and the request bodies that change it.

The table carries its constraints: ids are positive and below the AUTOINCREMENT
counter, and neither an id nor a serial occurs twice. SQLite promises of a new id
that it is larger than every id committed before; how much larger is `gap`.
-/

namespace DahuaBridge

/-! ## Request bodies -/

/-- `Field(min_length=least, max_length=most)`. -/
abbrev Text (least most : Nat) := { text : String // least ≤ text.length ∧ text.length ≤ most }

/-- `Field(ge=0, le=255)`. -/
abbrev Channel := { channel : Int // 0 ≤ channel ∧ channel ≤ 255 }

structure CameraInput where
  name : Text 1 80
  vendor : Vendor
  serial : Text 4 80
  username : Text 1 64 := ⟨"admin", by decide, by decide⟩
  password : Text 1 256
  channel : Channel := ⟨0, by decide, by decide⟩
  stream : VideoStream := .main
  enabled : Bool := true
  motionEnabled : Bool := true
  synologyWebhook : Option (Text 0 1000) := none

/-- A field of a patch, which `exclude_unset` leaves out if the body has not set it. -/
inductive Field (α : Type) where
  | unset
  | null
  | value (a : α)

structure CameraPatch where
  name : Field (Text 1 80) := .unset
  username : Field (Text 1 64) := .unset
  password : Field (Text 1 256) := .unset
  channel : Field Channel := .unset
  stream : Field VideoStream := .unset
  enabled : Field Bool := .unset
  motionEnabled : Field Bool := .unset
  synologyWebhook : Field (Text 0 1000) := .unset

namespace Field

variable {α β : Type}

def isUnset : Field α → Bool
  | unset => true
  | _ => false

/-- `SET column=?` of a column that is `NOT NULL`; `none` is the `IntegrityError`. -/
def set (f : α → β) (old : β) : Field α → Option β
  | unset => some old
  | null => none
  | value a => some (f a)

/-- `SET column=?` of a column that may be null. -/
def setNullable (f : α → β) (old : Option β) : Field α → Option β
  | unset => old
  | null => none
  | value a => some (f a)

end Field

/-- `not values`. -/
def CameraPatch.isEmpty (patch : CameraPatch) : Bool :=
  patch.name.isUnset && patch.username.isUnset && patch.password.isUnset &&
    patch.channel.isUnset && patch.stream.isUnset && patch.enabled.isUnset &&
    patch.motionEnabled.isUnset && patch.synologyWebhook.isUnset

/-- The row after the `UPDATE`; `encrypt` makes `password_enc` of a new password. -/
def CameraPatch.apply (patch : CameraPatch) (encrypt : String → String) (row : Camera) :
    Option Camera := do
  let name ← patch.name.set Subtype.val row.name
  let username ← patch.username.set Subtype.val row.username
  let passwordEnc ← patch.password.set (fun password => encrypt password.val) row.passwordEnc
  let channel ← patch.channel.set Subtype.val row.channel
  let stream ← patch.stream.set id row.stream
  let enabled ← patch.enabled.set id row.enabled
  let motionEnabled ← patch.motionEnabled.set id row.motionEnabled
  let synologyWebhook := patch.synologyWebhook.setNullable Subtype.val row.synologyWebhook
  some { row with name, username, passwordEnc, channel, stream, enabled, motionEnabled, synologyWebhook }

/-- An `UPDATE` touches neither the id nor the serial. -/
theorem CameraPatch.apply_eq_some {patch : CameraPatch} {encrypt : String → String}
    {row row' : Camera} (h : patch.apply encrypt row = some row') :
    row'.id = row.id ∧ row'.serial = row.serial ∧ row'.vendor = row.vendor ∧
      (row'.passwordEnc = row.passwordEnc ∨ ∃ password, row'.passwordEnc = encrypt password) := by
  simp only [CameraPatch.apply, Option.bind_eq_bind, Option.bind_eq_some_iff] at h
  obtain ⟨name, _, username, _, passwordEnc, hpassword, channel, _, stream, _, enabled, _,
    motionEnabled, _, h⟩ := h
  obtain rfl := Option.some.inj h
  refine ⟨rfl, rfl, rfl, ?_⟩
  cases hfield : patch.password with
  | unset =>
    rw [hfield] at hpassword
    exact .inl (Option.some.inj hpassword).symm
  | null =>
    rw [hfield] at hpassword
    cases hpassword
  | value password =>
    rw [hfield] at hpassword
    exact .inr ⟨password, (Option.some.inj hpassword).symm⟩

/-! ## The table -/

structure Database where
  rows : List Camera := []
  /-- The largest id that was ever committed. -/
  seq : Int := 0
  ids : ∀ row ∈ rows, 1 ≤ row.id ∧ row.id ≤ seq := by simp
  nodup : (rows.map Camera.id).Nodup := by simp
  serials : (rows.map Camera.serial).Nodup := by simp
  seq_nonneg : 0 ≤ seq := by decide

namespace Database

/-- SQLite binds integers of 64 bits; for others `execute` raises `OverflowError`. -/
def bindable (camera : CameraId) : Bool := -2 ^ 63 ≤ camera && camera < 2 ^ 63

/-- `SELECT * FROM cameras WHERE id=?`. -/
def select (db : Database) (camera : CameraId) : Option Camera :=
  db.rows.find? (·.id = camera)

/-- The row that an `INSERT` makes of a request. -/
def newRow (id : CameraId) (camera : CameraInput) (passwordEnc : String) : Camera where
  id := id
  name := camera.name
  vendor := camera.vendor
  serial := camera.serial
  username := camera.username
  passwordEnc := passwordEnc
  channel := camera.channel
  stream := camera.stream
  enabled := camera.enabled
  motionEnabled := camera.motionEnabled
  synologyWebhook := camera.synologyWebhook.map Subtype.val
  status := "not_tested"
  lastError := none

variable {db : Database} {camera : CameraId} {row : Camera}

theorem mem_of_select (h : db.select camera = some row) : row ∈ db.rows ∧ row.id = camera :=
  ⟨List.mem_of_find?_eq_some h, by simpa using List.find?_some h⟩

/-- Rows are told apart by their ids. -/
theorem eq_of_mem {row' : Camera} (h : row ∈ db.rows) (h' : row' ∈ db.rows) (hid : row.id = row'.id) :
    row = row' := List.inj_on_of_nodup_map db.nodup h h' hid

theorem select_of_mem (h : row ∈ db.rows) : db.select row.id = some row := by
  cases hselect : db.select row.id with
  | none => simpa using List.find?_eq_none.mp hselect row h
  | some row' =>
    obtain ⟨hmem, hid⟩ := mem_of_select hselect
    rw [eq_of_mem hmem h hid]

theorem select_eq_none : db.select camera = none ↔ ∀ row ∈ db.rows, row.id ≠ camera := by
  simp [select]

/-- The next id is larger than every id committed before. -/
theorem seq_lt_next (db : Database) (gap : Nat) : db.seq < db.seq + 1 + gap := by omega

theorem next_pos (db : Database) (gap : Nat) : 1 ≤ db.seq + 1 + gap := by
  have := db.seq_nonneg
  omega

theorem ids_insert (db : Database) (gap : Nat) (hid : row.id = db.seq + 1 + gap) :
    ∀ row' ∈ db.rows ++ [row], 1 ≤ row'.id ∧ row'.id ≤ row.id := by
  intro row' hrow'
  rcases List.mem_append.mp hrow' with hold | hnew
  · have hlt : db.seq < row.id := hid ▸ db.seq_lt_next gap
    exact ⟨(db.ids row' hold).1, Int.le_of_lt (Int.lt_of_le_of_lt (db.ids row' hold).2 hlt)⟩
  · obtain rfl := List.mem_singleton.mp hnew
    exact ⟨hid ▸ db.next_pos gap, Int.le_refl _⟩

theorem nodup_insert (db : Database) (gap : Nat) (hid : row.id = db.seq + 1 + gap) :
    ((db.rows ++ [row]).map Camera.id).Nodup := by
  rw [List.map_append, List.map_singleton, List.nodup_append]
  refine ⟨db.nodup, List.nodup_singleton _, ?_⟩
  rintro id hmem id' hmem' rfl
  obtain ⟨row', hrow', hrow_id⟩ := List.mem_map.mp hmem
  have hid' := List.mem_singleton.mp hmem'
  have hle := (db.ids row' hrow').2
  rw [hrow_id, hid', hid] at hle
  exact Int.lt_irrefl _ (Int.lt_of_lt_of_le (db.seq_lt_next gap) hle)

theorem serials_insert (db : Database) (h : row.serial ∉ db.rows.map Camera.serial) :
    ((db.rows ++ [row]).map Camera.serial).Nodup := by
  rw [List.map_append, List.map_singleton, List.nodup_append]
  refine ⟨db.serials, List.nodup_singleton _, ?_⟩
  rintro serial hmem serial' hmem' rfl
  obtain rfl := List.mem_singleton.mp hmem'
  exact h hmem

/-- `INSERT`; `none` is the `IntegrityError` for a serial that is in use. -/
def insert (db : Database) (gap : Nat) (camera : CameraInput) (passwordEnc : String) :
    Option (Database × Camera) :=
  let row := newRow (db.seq + 1 + gap) camera passwordEnc
  if h : camera.serial.val ∈ db.rows.map Camera.serial then none
  else some
    ({ rows := db.rows ++ [row]
       seq := row.id
       ids := db.ids_insert gap rfl
       nodup := db.nodup_insert gap rfl
       serials := db.serials_insert h
       seq_nonneg := Int.le_trans (by decide) (db.next_pos gap) },
      row)

theorem insert_eq_some (db : Database) (gap : Nat) {camera : CameraInput} (passwordEnc : String)
    (h : camera.serial.val ∉ db.rows.map Camera.serial) :
    ∃ db', db.insert gap camera passwordEnc =
        some (db', newRow (db.seq + 1 + gap) camera passwordEnc) ∧
      db'.rows = db.rows ++ [newRow (db.seq + 1 + gap) camera passwordEnc] ∧
      db'.seq = db.seq + 1 + gap := by
  rw [insert, dif_neg h]
  exact ⟨_, rfl, rfl, rfl⟩

theorem insert_eq_none (db : Database) (gap : Nat) {camera : CameraInput} (passwordEnc : String)
    (h : camera.serial.val ∈ db.rows.map Camera.serial) : db.insert gap camera passwordEnc = none := by
  rw [insert, dif_pos h]

/-- Writes a row in the place of the one with its id and its serial. -/
def replace (db : Database) (row : Camera)
    (h : ∃ old ∈ db.rows, old.id = row.id ∧ old.serial = row.serial) : Database where
  rows := db.rows.map fun old => if old.id = row.id then row else old
  seq := db.seq
  ids := by
    intro row' hrow'
    obtain ⟨old, hold, rfl⟩ := List.mem_map.mp hrow'
    split
    · next heq => exact heq ▸ db.ids old hold
    · exact db.ids old hold
  nodup := by
    have hids : (db.rows.map fun old => if old.id = row.id then row else old).map Camera.id =
        db.rows.map Camera.id := by
      rw [List.map_map]
      refine List.map_congr_left fun old _ => ?_
      simp only [Function.comp_apply]
      split
      · next heq => exact heq.symm
      · rfl
    rw [hids]
    exact db.nodup
  serials := by
    have hserials : (db.rows.map fun old => if old.id = row.id then row else old).map Camera.serial =
        db.rows.map Camera.serial := by
      rw [List.map_map]
      refine List.map_congr_left fun old hold => ?_
      simp only [Function.comp_apply]
      split
      · next heq =>
        obtain ⟨old', hold', hid, hserial⟩ := h
        rw [← hserial, db.eq_of_mem hold' hold (hid.trans heq.symm)]
      · rfl
    rw [hserials]
    exact db.serials
  seq_nonneg := db.seq_nonneg

inductive UpdateError where
  /-- `rowcount` is 0. -/
  | notFound
  /-- `NULL` in a column that is `NOT NULL`. -/
  | integrity

/-- `UPDATE`, and the row that it leaves. -/
def update (db : Database) (camera : CameraId) (patch : CameraPatch) (encrypt : String → String) :
    Except UpdateError (Database × Camera) :=
  match hselect : db.select camera with
  | none => .error .notFound
  | some row =>
    match hpatch : patch.apply encrypt row with
    | none => .error .integrity
    | some row' =>
      have hold : ∃ old ∈ db.rows, old.id = row'.id ∧ old.serial = row'.serial :=
        have happly := CameraPatch.apply_eq_some hpatch
        ⟨row, (mem_of_select hselect).1, happly.1.symm, happly.2.1.symm⟩
      .ok (db.replace row' hold, row')

/-- An `UPDATE` that finds its row replaces it by the patched one. -/
theorem update_eq_ok {db' : Database} {patch : CameraPatch} {encrypt : String → String}
    {row' : Camera} (h : db.update camera patch encrypt = .ok (db', row')) :
    ∃ row hold, db.select camera = some row ∧ patch.apply encrypt row = some row' ∧
      db' = db.replace row' hold := by
  unfold update at h
  split at h
  · cases h
  · next row hselect =>
    split at h
    · cases h
    · next row'' hpatch =>
      cases h
      exact ⟨row, _, hselect, hpatch, rfl⟩

theorem seq_update {db' : Database} {patch : CameraPatch} {encrypt : String → String}
    (h : db.update camera patch encrypt = .ok (db', row)) : db'.seq = db.seq := by
  obtain ⟨_, _, _, _, rfl⟩ := update_eq_ok h
  rfl

/-- `DELETE`. -/
def delete (db : Database) (camera : CameraId) : Database where
  rows := db.rows.filter (·.id ≠ camera)
  seq := db.seq
  ids row hrow := db.ids row (List.mem_of_mem_filter hrow)
  nodup := (List.filter_sublist.map _).nodup db.nodup
  serials := (List.filter_sublist.map _).nodup db.serials
  seq_nonneg := db.seq_nonneg

/-! ## What is found after a change -/

theorem not_mem_of_seq_lt (h : db.seq < camera) : ∀ row ∈ db.rows, row.id ≠ camera := by
  rintro row hrow rfl
  exact Int.lt_irrefl _ (Int.lt_of_lt_of_le h (db.ids row hrow).2)

theorem select_append {db' : Database} (hrows : db'.rows = db.rows ++ [row]) (hnew : db.seq < row.id) :
    db'.select row.id = some row ∧ db.select row.id = none ∧
      ∀ camera, camera ≠ row.id → db'.select camera = db.select camera := by
  have hnone : db.select row.id = none := select_eq_none.mpr (not_mem_of_seq_lt hnew)
  refine ⟨select_of_mem ?_, hnone, fun camera hne => ?_⟩
  · rw [hrows]
    exact List.mem_append_right _ (List.mem_singleton_self row)
  · have hlast : List.find? (fun row => decide (row.id = camera)) [row] = none := by
      simpa using hne.symm
    rw [select, select, hrows, List.find?_append, hlast, Option.or_none]

theorem mem_replace {row' : Camera} (h : ∃ old ∈ db.rows, old.id = row.id ∧ old.serial = row.serial) :
    row' ∈ (db.replace row h).rows ↔ row' = row ∨ row' ∈ db.rows ∧ row'.id ≠ row.id := by
  simp only [replace, List.mem_map]
  constructor
  · rintro ⟨old, hold, rfl⟩
    split
    · exact .inl rfl
    · next hne => exact .inr ⟨hold, hne⟩
  · rintro (rfl | ⟨hmem, hne⟩)
    · obtain ⟨old, hold, hid, _⟩ := h
      exact ⟨old, hold, if_pos hid⟩
    · exact ⟨row', hmem, if_neg hne⟩

/-- Tables with the same rows of one id find the same row there. -/
theorem select_congr {db' : Database}
    (h : ∀ row, row.id = camera → (row ∈ db'.rows ↔ row ∈ db.rows)) :
    db'.select camera = db.select camera := by
  cases hselect : db.select camera with
  | none =>
    rw [select_eq_none] at hselect ⊢
    exact fun row hrow hid => hselect row ((h row hid).mp hrow) hid
  | some row =>
    obtain ⟨hmem, rfl⟩ := mem_of_select hselect
    exact select_of_mem ((h row rfl).mpr hmem)

theorem select_replace (h : ∃ old ∈ db.rows, old.id = row.id ∧ old.serial = row.serial) :
    (db.replace row h).select row.id = some row ∧
      ∀ camera, camera ≠ row.id → (db.replace row h).select camera = db.select camera := by
  refine ⟨select_of_mem ((mem_replace h).mpr (.inl rfl)), fun camera hne => select_congr fun row' hid => ?_⟩
  rw [mem_replace h]
  constructor
  · rintro (rfl | ⟨hmem, _⟩)
    · exact absurd hid.symm hne
    · exact hmem
  · intro hmem
    exact .inr ⟨hmem, hid ▸ hne⟩

theorem select_delete : (db.delete camera).select camera = none ∧
    ∀ camera', camera' ≠ camera → (db.delete camera).select camera' = db.select camera' := by
  refine ⟨?_, fun camera' hne => select_congr fun row hid => ?_⟩
  · rw [select_eq_none]
    intro row hrow
    simpa using (List.mem_filter.mp hrow).2
  · rw [delete, List.mem_filter]
    simp [hid, hne]

end Database

end DahuaBridge
