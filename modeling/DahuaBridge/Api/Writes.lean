import DahuaBridge.Api.Capacity

/-!
# Camera writes that fail halfway

A write commits its transaction before it stops and starts the camera's worker. What fails
after the commit leaves the new row behind, and most of what can fail is not caught.

* `Created`, `Updated`, `Refused`: the two ways in which a write may end.
* `camera_writes_iff`: exactly which requests end in one of them.
* `update_not_atomic`: a null that is not caught, and a commit without its worker.
-/

namespace DahuaBridge

/-- A request that runs alone, and what fails in it. -/
def write (cfg : Config) (cipher : Cipher) (env : Env) (faults : Faults) (server : Server)
    (request : Request) : Server × Handler :=
  serve cfg cipher { env with faults } server request

/-! ## How a write may end -/

namespace Field

variable {α β : Type}

def isNull : Field α → Bool
  | null => true
  | _ => false

/-- The old value, or the one that is supplied. -/
def getOr (f : α → β) (old : β) : Field α → β
  | value a => f a
  | _ => old

theorem bind_set {γ : Type} (f : α → β) (old : β) (field : Field α) (next : β → Option γ) :
    (field.set f old).bind next = if field.isNull then none else next (field.getOr f old) := by
  cases field <;> rfl

end Field

namespace CameraPatch

/-- A column that cannot be null is set to null. -/
def clears (patch : CameraPatch) : Bool :=
  patch.name.isNull || patch.username.isNull || patch.password.isNull || patch.channel.isNull ||
    patch.stream.isNull || patch.enabled.isNull || patch.motionEnabled.isNull

/-- The row with the supplied fields in the place of its own. -/
def overwrite (patch : CameraPatch) (encrypt : String → String) (row : Camera) : Camera :=
  { row with
    name := patch.name.getOr Subtype.val row.name
    username := patch.username.getOr Subtype.val row.username
    passwordEnc := patch.password.getOr (fun password => encrypt password.val) row.passwordEnc
    channel := patch.channel.getOr Subtype.val row.channel
    stream := patch.stream.getOr id row.stream
    enabled := patch.enabled.getOr id row.enabled
    motionEnabled := patch.motionEnabled.getOr id row.motionEnabled
    synologyWebhook := patch.synologyWebhook.setNullable Subtype.val row.synologyWebhook }

/-- The `UPDATE` fails exactly at a null that its column does not take. -/
theorem apply_eq (patch : CameraPatch) (encrypt : String → String) (row : Camera) :
    patch.apply encrypt row = if patch.clears then none else some (patch.overwrite encrypt row) := by
  have hor (a b : Bool) (o : Option Camera) :
      (if a = true then none else if b = true then none else o) =
        if (a || b) = true then none else o := by
    cases a <;> rfl
  simp only [apply, Option.bind_eq_bind, Field.bind_set, hor, clears, Bool.or_assoc]
  rfl

end CameraPatch

/-- The camera of the row has a worker exactly if it should have one, with the row and its
password, and the other cameras' workers are as before. -/
structure Follows (cfg : Config) (cipher : Cipher) (row : Camera) (workers workers' : Workers) :
    Prop where
  started : row.wantsWorker = true → ∃ worker, workers' row.id = some worker ∧
    worker.camera = row ∧ cfg.portFor row.id = some worker.port ∧
    cipher.decrypt row.passwordEnc = some worker.password
  idle : row.wantsWorker = false → workers' row.id = none
  others : ∀ camera, camera ≠ row.id → workers' camera = workers camera

/-- An `HTTPException` of the handler, not an exception that escapes it. -/
def Response.Refuses (response : Response) : Prop :=
  ∃ status detail, response = .error status detail ∧ 400 ≤ status ∧ status < 600 ∧
    response ≠ .internal

section Ends

variable (cfg : Config) (cipher : Cipher) (env : Env) (server : Server)

/-- The camera is stored as supplied, and its worker follows the new row. -/
def Created (camera : CameraInput) (out : Server × Handler) : Prop :=
  ∃ row result, row = Database.newRow (server.db.seq + 1 + env.gap) camera
      (cipher.encrypt env.nonce camera.password) ∧
    out.2 = .done (.item 201 result) ∧ result.id = row.id ∧
    out.1.db.rows = server.db.rows ++ [row] ∧
    Follows cfg cipher row server.workers out.1.workers

/-- The row is overwritten by the supplied fields, no other row has changed, and the worker
follows the new row. -/
def Updated (camera : CameraId) (patch : CameraPatch) (out : Server × Handler) : Prop :=
  ∃ old row result, server.db.select camera = some old ∧ patch.clears = false ∧
    row = patch.overwrite (cipher.encrypt env.nonce) old ∧
    out.2 = .done (.item 200 result) ∧ result.id = camera ∧ out.1.db.select camera = some row ∧
    (∀ other, other ≠ camera → out.1.db.select other = server.db.select other) ∧
    Follows cfg cipher row server.workers out.1.workers

/-- The request is refused, and nothing has changed. -/
def Refused (out : Server × Handler) : Prop :=
  ∃ response, out.2 = .done response ∧ response.Refuses ∧ out.1.db.rows = server.db.rows ∧
    out.1.workers = server.workers

/-! ## Which writes end so -/

/-- Either the request is refused before its transaction, or its id has a port, and the
worker is launched if there is to be one and absent if not. -/
def PostHolds (faults : Faults) (camera : CameraInput) : Prop :=
  faults.secret = false ∨ camera.serial.val ∈ server.db.rows.map Camera.serial ∨
    (cfg.portFor (server.db.seq + 1 + env.gap)).isSome = true ∧
      if camera.enabled && camera.vendor.hasP2P then camera.Starts faults
      else server.workers (server.db.seq + 1 + env.gap) = none

/-- What has to go well for the worker of the row `row`, which was `old`, after the commit:
everything, or `cipher()` fails and there is nothing to undo. -/
def WorkerHolds (faults : Faults) (old row : Camera) : Prop :=
  row.wantsWorker = true →
    faults.secret = true ∧ faults.popen = true ∧
      (∃ password, cipher.decrypt row.passwordEnc = some password ∧
        row.launchable password = true) ∨
    faults.secret = false ∧ row = old ∧ server.workers row.id = none

/-- Either the request is refused before its transaction, or no column refuses a null, the
id has a port, and nothing fails for the worker. -/
def PatchHolds (faults : Faults) (camera : CameraId) (patch : CameraPatch) : Prop :=
  patch.password.isUnset = false ∧ faults.secret = false ∨
    patch.password.isNull = false ∧ (patch.isEmpty = true ∨
      match server.db.select camera with
      | none => Database.bindable camera = true
      | some old => patch.clears = false ∧ (cfg.portFor camera).isSome = true ∧
          WorkerHolds cipher server faults old (patch.overwrite (cipher.encrypt env.nonce) old))

end Ends

/-! ## The cases of a write -/

section Cases

variable {cfg : Config} {cipher : Cipher} {env : Env} {server server' : Server}
  {camera : CameraId} {patch : CameraPatch} {row : Camera}

theorem refuses_error {status : Nat} (detail : String) (h : 400 ≤ status ∧ status < 500) :
    (Response.error status detail).Refuses := by
  refine ⟨status, detail, rfl, h.1, Nat.lt_trans h.2 (by decide), fun hinternal => ?_⟩
  exact Nat.ne_of_lt h.2 (Response.error.inj hinternal).1

theorem refuses_noSecret : Response.noSecret.Refuses :=
  ⟨503, _, rfl, by decide, by decide, fun h => absurd (Response.error.inj h).1 (by decide)⟩

theorem refused_same {response : Response} (h : response.Refuses) :
    Refused server (server, .done response) := ⟨response, rfl, h, rfl, rfl⟩

/-- An exception that escapes the handler is neither way to end. -/
theorem not_refused_internal : ¬Refused server (server', .done .internal) := by
  rintro ⟨response, hdone, ⟨_, _, _, _, _, hne⟩, _⟩
  exact hne (Handler.done.inj hdone).symm

theorem not_refused_item {status : Nat} {item : PublicCamera} :
    ¬Refused server (server', .done (.item status item)) := by
  rintro ⟨response, hdone, ⟨_, _, herror, _⟩, _⟩
  obtain rfl := Handler.done.inj hdone
  cases herror

theorem not_created_error {camera : CameraInput} {status : Nat} {detail : String} :
    ¬Created cfg cipher env server camera (server', .done (.error status detail)) := by
  rintro ⟨_, _, _, hdone, _⟩
  cases hdone

theorem not_updated_error {status : Nat} {detail : String} :
    ¬Updated cfg cipher env server camera patch (server', .done (.error status detail)) := by
  rintro ⟨_, _, _, _, _, _, hdone, _⟩
  cases hdone

/-- The worker that `start` enters follows the row. -/
theorem follows_start {workers : Workers} {password : String} {port : Int}
    (hwants : row.wantsWorker = true) (hport : cfg.portFor row.id = some port)
    (hpassword : cipher.decrypt row.passwordEnc = some password) :
    Follows cfg cipher row workers (workers.enter cfg row password).1 := by
  have hvendor : row.vendor.hasP2P = true := by
    rw [Camera.wantsWorker, Bool.and_eq_true] at hwants
    exact hwants.2
  obtain ⟨_, hself, hothers⟩ := workers.enter_eq password hvendor hport
  refine ⟨fun _ => ⟨_, hself, rfl, hport, hpassword⟩, fun hidle => ?_, hothers⟩
  cases hidle.symm.trans hwants

/-! ### `add_camera` -/

/-- The rest of the handler, after a commit that has added `row`. -/
theorem addRow_iff {camera : CameraInput} {port : Int}
    (hrow : row = Database.newRow (server.db.seq + 1 + env.gap) camera
      (cipher.encrypt env.nonce camera.password))
    (hserial : camera.serial.val ∉ server.db.rows.map Camera.serial)
    (hport : cfg.portFor (server.db.seq + 1 + env.gap) = some port)
    (hstep : (Request.post camera).handler.step cfg cipher env server =
      Handler.addRow cfg cipher env server camera) :
    (Created cfg cipher env server camera (serve cfg cipher env server (.post camera)) ∨
      Refused server (serve cfg cipher env server (.post camera))) ↔
        if row.wantsWorker then (env.faults.popen && row.launchable camera.password) = true
        else server.workers row.id = none := by
  have hid : row.id = server.db.seq + 1 + env.gap := by rw [hrow]; rfl
  obtain ⟨db, item, hrows, _, hitem, _, hadd⟩ := addRow_of_port hserial hport hrow
  rw [hadd] at hstep
  cases hwants : row.wantsWorker with
  | false =>
    rw [hwants] at hstep
    rw [serve_of_done hstep, if_neg Bool.false_ne_true]
    constructor
    · rintro (⟨row', _, hrow', _, _, _, hfollows⟩ | hrefused)
      · obtain rfl : row' = row := hrow'.trans hrow.symm
        exact hfollows.idle hwants
      · exact absurd hrefused not_refused_item
    · intro hnone
      refine .inl ⟨row, item, hrow, rfl, hitem, hrows, fun h => ?_, fun _ => hnone,
        fun _ _ => rfl⟩
      cases hwants.symm.trans h
  | true =>
    rw [hwants] at hstep
    have hport' : cfg.portFor row.id = some port := hid ▸ hport
    have hpassword : cipher.decrypt row.passwordEnc = some camera.password := by
      rw [hrow]
      exact cipher.decrypt_encrypt _ _
    have hwrite : serve cfg cipher env server (.post camera) =
        ({ server with db, workers := (server.workers.enter cfg row camera.password).1 },
          .done (if env.faults.popen && row.launchable camera.password then .item 201 item
            else .internal)) :=
      serve_of_steps hstep (finishStart_eq hwants hport') rfl
    rw [hwrite, if_pos rfl]
    cases hpopen : env.faults.popen && row.launchable camera.password with
    | false =>
      exact iff_of_false (not_or.mpr ⟨not_created_error, not_refused_internal⟩)
        Bool.false_ne_true
    | true =>
      refine iff_of_true (.inl ⟨row, item, hrow, rfl, hitem, hrows, ?_⟩) rfl
      exact follows_start hwants hport' hpassword

theorem post_iff (cfg : Config) (cipher : Cipher) (env : Env) (server : Server)
    (camera : CameraInput) :
    (Created cfg cipher env server camera (serve cfg cipher env server (.post camera)) ∨
      Refused server (serve cfg cipher env server (.post camera))) ↔
        PostHolds cfg env server env.faults camera := by
  have hdone {server' : Server} {response : Response}
      (h : (Request.post camera).handler.step cfg cipher env server =
        (server', .done response)) := serve_of_done h
  cases hsecret : env.faults.secret with
  | false =>
    rw [hdone (by simp only [Request.handler, Handler.step, hsecret]; rfl)]
    exact iff_of_true (.inr (refused_same refuses_noSecret)) (.inl hsecret)
  | true =>
    have hstep : (Request.post camera).handler.step cfg cipher env server =
        Handler.addRow cfg cipher env server camera := by
      simp only [Request.handler, Handler.step, hsecret, if_true]
    by_cases hused : camera.serial.val ∈ server.db.rows.map Camera.serial
    · rw [hdone (hstep.trans (addRow_of_used hused))]
      exact iff_of_true (.inr (refused_same (refuses_error _ (by decide)))) (.inr (.inl hused))
    · cases hport : cfg.portFor (server.db.seq + 1 + env.gap) with
      | none =>
        rw [hdone (hstep.trans (addRow_of_no_port hused hport))]
        refine iff_of_false (not_or.mpr ⟨not_created_error, not_refused_internal⟩) ?_
        rintro (hnone | hserial | ⟨hsome, _⟩)
        · cases hnone.symm.trans hsecret
        · exact hused hserial
        · rw [hport] at hsome
          cases hsome
      | some port =>
        rw [addRow_iff rfl hused hport hstep, PostHolds, hsecret, hport]
        have hstarts : (if (camera.enabled && camera.vendor.hasP2P) = true then
              (env.faults.popen && (Database.newRow (server.db.seq + 1 + env.gap) camera
                (cipher.encrypt env.nonce camera.password)).launchable camera.password) = true
            else server.workers (server.db.seq + 1 + env.gap) = none) ↔
          if (camera.enabled && camera.vendor.hasP2P) = true then camera.Starts env.faults
            else server.workers (server.db.seq + 1 + env.gap) = none := by
          split
          · next hwants =>
            have hwants : (Database.newRow (server.db.seq + 1 + env.gap) camera
              (cipher.encrypt env.nonce camera.password)).wantsWorker = true := hwants
            rw [starts_iff, hwants, Bool.true_and, Bool.not_eq_false']
          · rfl
        refine Iff.trans hstarts ?_
        simp only [Bool.true_eq_false, hused, Option.isSome_some, true_and, false_or]

/-! ### `update_camera` -/

theorem update_none {encrypt : String → String} (h : server.db.select camera = none) :
    server.db.update camera patch encrypt = .error .notFound := by
  unfold Database.update
  split
  · rfl
  · next hselect => cases h.symm.trans hselect

theorem update_clears {encrypt : String → String} {old : Camera}
    (h : server.db.select camera = some old) (hclears : patch.clears = true) :
    server.db.update camera patch encrypt = .error .integrity := by
  have happly : patch.apply encrypt old = none := by rw [patch.apply_eq, if_pos hclears]
  unfold Database.update
  split
  · next hselect => cases h.symm.trans hselect
  · next old' hselect =>
    obtain rfl : old = old' := Option.some.inj (h.symm.trans hselect)
    split
    · rfl
    · next hsome => cases happly.symm.trans hsome

theorem update_overwrites {encrypt : String → String} {old : Camera}
    (h : server.db.select camera = some old) (hclears : patch.clears = false) :
    ∃ hold, server.db.update camera patch encrypt =
      .ok (server.db.replace (patch.overwrite encrypt old) hold, patch.overwrite encrypt old) := by
  have happly : patch.apply encrypt old = some (patch.overwrite encrypt old) := by
    rw [patch.apply_eq, hclears]
    rfl
  unfold Database.update
  split
  · next hselect => cases h.symm.trans hselect
  · next old' hselect =>
    obtain rfl : old = old' := Option.some.inj (h.symm.trans hselect)
    split
    · next hnone => cases happly.symm.trans hnone
    · next row' hsome =>
      obtain rfl := Option.some.inj (happly.symm.trans hsome)
      exact ⟨⟨old, (Database.mem_of_select h).1, rfl, rfl⟩, rfl⟩

/-- The transaction of a patch that is not refused for its password. -/
theorem updateRow_eq (hpassword : patch.password.isNull = false) :
    Handler.updateRow cfg cipher env server camera patch =
      if patch.isEmpty then (server, .done (.error 400 "No changes supplied"))
      else match server.db.update camera patch (cipher.encrypt env.nonce) with
        | .error .notFound => (server, .done (.noCamera camera))
        | .error .integrity => (server, .done .internal)
        | .ok (db, row) =>
          match cfg.publicCamera row (server.report env row.id) with
          | none => (server, .done .internal)
          | some result => ({ server with db }, .updateStop row result) := by
  unfold Handler.updateRow
  cases hfield : patch.password with
  | null =>
    rw [hfield] at hpassword
    cases hpassword
  | unset => rfl
  | value _ => rfl

theorem updateRow_of_none (hpassword : patch.password.isNull = false)
    (hempty : patch.isEmpty = false) (h : server.db.select camera = none) :
    Handler.updateRow cfg cipher env server camera patch = (server, .done (.noCamera camera)) := by
  rw [updateRow_eq hpassword, hempty, update_none h]
  rfl

theorem updateRow_of_clears {old : Camera} (hpassword : patch.password.isNull = false)
    (hempty : patch.isEmpty = false) (h : server.db.select camera = some old)
    (hclears : patch.clears = true) :
    Handler.updateRow cfg cipher env server camera patch = (server, .done .internal) := by
  rw [updateRow_eq hpassword, hempty, update_clears h hclears]
  rfl

/-- The transaction reads the row that it has written, if that has a port. -/
theorem updateRow_of_overwrites (cfg : Config) {old : Camera} (hpassword : patch.password.isNull = false)
    (hempty : patch.isEmpty = false) (h : server.db.select camera = some old)
    (hclears : patch.clears = false) (hrow : row = patch.overwrite (cipher.encrypt env.nonce) old) :
    match cfg.portFor camera with
    | none => Handler.updateRow cfg cipher env server camera patch = (server, .done .internal)
    | some _ => ∃ hold item, item.id = camera ∧ Handler.updateRow cfg cipher env server camera patch =
        ({ server with db := server.db.replace row hold }, .updateStop row item) := by
  subst hrow
  obtain ⟨hold, hupdate⟩ := update_overwrites h hclears
  have hid : (patch.overwrite (cipher.encrypt env.nonce) old).id = camera :=
    (Database.mem_of_select h).2
  rw [updateRow_eq hpassword, hempty, hupdate]
  cases hport : cfg.portFor camera with
  | none =>
    have hnone (report : Status × Option String) :
        cfg.publicCamera (patch.overwrite (cipher.encrypt env.nonce) old) report = none :=
      publicCamera_eq_none (hid ▸ hport)
    simp only [Bool.false_eq_true, if_false, hnone]
  | some port =>
    have hrow : cfg.portFor (patch.overwrite (cipher.encrypt env.nonce) old).id = some port :=
      hid ▸ hport
    obtain ⟨item, hitem, hitem_id, _⟩ := publicCamera_eq_some
      (server.report env (patch.overwrite (cipher.encrypt env.nonce) old).id) hrow
    refine ⟨hold, item, hitem_id.trans hid, ?_⟩
    simp only [Bool.false_eq_true, if_false, hitem]

/-- A row that is written in its own place changes nothing. -/
theorem replace_rows_eq_iff {old : Camera} (h : server.db.select row.id = some old)
    (hold : ∃ old ∈ server.db.rows, old.id = row.id ∧ old.serial = row.serial) :
    (server.db.replace row hold).rows = server.db.rows ↔ row = old := by
  obtain ⟨hmem, hid⟩ := Database.mem_of_select h
  constructor
  · intro hrows
    have hrow : row ∈ (server.db.replace row hold).rows := (Database.mem_replace hold).mpr (.inl rfl)
    rw [hrows] at hrow
    exact Database.eq_of_mem hrow hmem hid.symm
  · rintro rfl
    refine (List.map_congr_left fun other hother => ?_).trans (List.map_id _)
    split
    · next heq => exact Database.eq_of_mem hmem hother heq.symm
    · rfl

theorem stop_eq_iff {workers : Workers} : workers.stop camera = workers ↔ workers camera = none := by
  constructor
  · intro h
    rw [← h]
    exact Function.update_self ..
  · intro h
    rw [Workers.stop, ← h]
    exact Function.update_eq_self camera workers

/-- The step after the commit: the worker is stopped, and what comes then depends on the
row, the secret and the stored password. -/
theorem step_updateStop (row : Camera) (item : PublicCamera) :
    (Handler.updateStop row item).step cfg cipher env server =
      ({ server with workers := server.workers.stop row.id },
        if row.wantsWorker then
          if env.faults.secret then
            match cipher.decrypt row.passwordEnc with
            | none => .done .internal
            | some password => .updateStart row password item
          else .done .noSecret
        else .done (.item 200 item)) := by
  cases hwants : row.wantsWorker <;> cases hsecret : env.faults.secret <;>
    cases hpassword : cipher.decrypt row.passwordEnc <;>
    simp [Handler.step, hwants, hsecret, hpassword]

/-- The rest of the handler, after a commit that has written `row` over `old`. -/
theorem updateStop_iff {old : Camera} {item : PublicCamera} {port : Int}
    (hselect : server.db.select camera = some old) (hclears : patch.clears = false)
    (hrow : row = patch.overwrite (cipher.encrypt env.nonce) old)
    (hold : ∃ old ∈ server.db.rows, old.id = row.id ∧ old.serial = row.serial)
    (hitem : item.id = camera) (hport : cfg.portFor camera = some port)
    (hstep : (Request.patch camera patch).handler.step cfg cipher env server =
      ({ server with db := server.db.replace row hold }, .updateStop row item)) :
    (Updated cfg cipher env server camera patch
        (serve cfg cipher env server (.patch camera patch)) ∨
      Refused server (serve cfg cipher env server (.patch camera patch))) ↔
        WorkerHolds cipher server env.faults old row := by
  have hid : row.id = camera := by
    rw [hrow]
    exact (Database.mem_of_select hselect).2
  subst hid
  obtain ⟨hself, hothers⟩ := Database.select_replace hold
  have hupdated {out : Server × Handler} (hdone : out.2 = .done (.item 200 item))
      (hdb : out.1.db = server.db.replace row hold)
      (hfollows : Follows cfg cipher row server.workers out.1.workers) :
      Updated cfg cipher env server row.id patch out :=
    ⟨old, row, item, hselect, hclears, hrow, hdone, hitem, hdb ▸ hself, hdb ▸ hothers, hfollows⟩
  have hstop : (Handler.updateStop row item).step cfg cipher env
      { server with db := server.db.replace row hold } = _ := step_updateStop row item
  cases hwants : row.wantsWorker with
  | false =>
    rw [hwants, if_neg Bool.false_ne_true] at hstop
    rw [serve_of_steps hstep hstop rfl]
    refine iff_of_true (.inl (hupdated rfl rfl ⟨fun h => ?_, fun _ => ?_, fun other hne => ?_⟩)) ?_
    · cases hwants.symm.trans h
    · exact Function.update_self ..
    · exact Function.update_of_ne hne ..
    · intro h
      cases hwants.symm.trans h
  | true =>
    have hholds : WorkerHolds cipher server env.faults old row ↔
        env.faults.secret = true ∧ env.faults.popen = true ∧
          (∃ password, cipher.decrypt row.passwordEnc = some password ∧
            row.launchable password = true) ∨
        env.faults.secret = false ∧ row = old ∧ server.workers row.id = none :=
      ⟨fun h => h hwants, fun h _ => h⟩
    rw [hholds]
    rw [hwants, if_pos rfl] at hstop
    cases hsecret : env.faults.secret with
    | false =>
      rw [hsecret, if_neg Bool.false_ne_true] at hstop
      rw [serve_of_steps hstep hstop rfl]
      constructor
      · rintro (hupdated | ⟨_, _, _, hrows, hworkers⟩)
        · exact absurd hupdated not_updated_error
        · exact .inr ⟨rfl, (replace_rows_eq_iff hselect hold).mp hrows, stop_eq_iff.mp hworkers⟩
      · rintro (⟨hfalse, _⟩ | ⟨_, hsame, hnone⟩)
        · cases hfalse
        · exact .inr ⟨_, rfl, refuses_noSecret, (replace_rows_eq_iff hselect hold).mpr hsame,
            stop_eq_iff.mpr hnone⟩
    | true =>
      have hnot : ¬(true = false ∧ row = old ∧ server.workers row.id = none) := nofun
      rw [or_iff_left hnot]
      rw [hsecret, if_pos rfl] at hstop
      cases hpassword : cipher.decrypt row.passwordEnc with
      | none =>
        rw [hpassword] at hstop
        rw [serve_of_steps hstep hstop rfl]
        refine iff_of_false (not_or.mpr ⟨not_updated_error, not_refused_internal⟩) ?_
        rintro ⟨_, _, _, hsome, _⟩
        cases hsome
      | some password =>
        rw [hpassword] at hstop
        rw [serve_of_steps hstep hstop (finishStart_eq hwants hport)]
        have hstarts : (true = true ∧ env.faults.popen = true ∧
            ∃ password', some password = some password' ∧ row.launchable password' = true) ↔
              (env.faults.popen && row.launchable password) = true := by
          simp only [Option.some.injEq, exists_eq_left', true_and, Bool.and_eq_true]
        rw [hstarts]
        cases hpopen : env.faults.popen && row.launchable password with
        | false =>
          exact iff_of_false (not_or.mpr ⟨not_updated_error, not_refused_internal⟩)
            Bool.false_ne_true
        | true =>
          refine iff_of_true (.inl (hupdated rfl rfl ?_)) rfl
          have hfollows : Follows cfg cipher row (server.workers.stop row.id) _ :=
            follows_start hwants hport hpassword
          refine ⟨hfollows.started, hfollows.idle, fun other hne => ?_⟩
          exact (hfollows.others other hne).trans (Function.update_of_ne hne ..)

theorem patch_iff (cfg : Config) (cipher : Cipher) (env : Env) (server : Server)
    (camera : CameraId) (patch : CameraPatch) :
    (Updated cfg cipher env server camera patch
        (serve cfg cipher env server (.patch camera patch)) ∨
      Refused server (serve cfg cipher env server (.patch camera patch))) ↔
        PatchHolds cfg cipher env server env.faults camera patch := by
  have hdone {server' : Server} {response : Response}
      (h : (Request.patch camera patch).handler.step cfg cipher env server =
        (server', .done response)) := serve_of_done h
  cases hready : (env.faults.secret || patch.password.isUnset) with
  | false =>
    rw [Bool.or_eq_false_iff] at hready
    rw [hdone (by simp only [Request.handler, Handler.step, hready, Bool.or_self]; rfl)]
    exact iff_of_true (.inr (refused_same refuses_noSecret)) (.inl hready.symm)
  | true =>
    have hstep : (Request.patch camera patch).handler.step cfg cipher env server =
        Handler.updateRow cfg cipher env server camera patch := by
      simp only [Request.handler, Handler.step, hready, if_true]
    have hcipher : ¬(patch.password.isUnset = false ∧ env.faults.secret = false) := by
      rintro ⟨hset, hsecret⟩
      rw [hset, hsecret] at hready
      cases hready
    rw [PatchHolds, or_iff_right hcipher]
    have hescapes (h : (Request.patch camera patch).handler.step cfg cipher env server =
        (server, .done .internal)) : ¬(Updated cfg cipher env server camera patch
          (serve cfg cipher env server (.patch camera patch)) ∨
        Refused server (serve cfg cipher env server (.patch camera patch))) := by
      rw [hdone h]
      exact not_or.mpr ⟨not_updated_error, not_refused_internal⟩
    cases hpassword : patch.password.isNull with
    | true =>
      refine iff_of_false (hescapes (hstep.trans ?_)) fun h => by cases h.1
      cases hfield : patch.password with
      | null => rw [Handler.updateRow, hfield]
      | unset => rw [hfield] at hpassword; cases hpassword
      | value _ => rw [hfield] at hpassword; cases hpassword
    | false =>
      rw [and_iff_right rfl]
      cases hempty : patch.isEmpty with
      | true =>
        rw [hdone (hstep.trans (by rw [updateRow_eq hpassword, hempty]; rfl))]
        exact iff_of_true (.inr (refused_same (refuses_error _ (by decide)))) (.inl rfl)
      | false =>
        rw [or_iff_right Bool.false_ne_true]
        cases hselect : server.db.select camera with
        | none =>
          have hnone := hstep.trans (updateRow_of_none hpassword hempty hselect)
          cases hbind : Database.bindable camera with
          | false =>
            rw [Response.noCamera, hbind] at hnone
            exact iff_of_false (hescapes hnone) Bool.false_ne_true
          | true =>
            rw [Response.noCamera, hbind] at hnone
            rw [hdone hnone]
            exact iff_of_true (.inr (refused_same (refuses_error _ (by decide)))) rfl
        | some old =>
          cases hclears : patch.clears with
          | true =>
            refine iff_of_false (hescapes (hstep.trans
              (updateRow_of_clears hpassword hempty hselect hclears))) fun h => by cases h.1
          | false =>
            have hrow : patch.overwrite (cipher.encrypt env.nonce) old = _ := rfl
            have hrest := updateRow_of_overwrites cfg hpassword hempty hselect hclears hrow
            cases hport : cfg.portFor camera with
            | none =>
              rw [hport] at hrest
              exact iff_of_false (hescapes (hstep.trans hrest)) fun h => by cases h.2.1
            | some port =>
              rw [hport] at hrest
              obtain ⟨hold, item, hitem, hupdate⟩ := hrest
              have hiff :=
                updateStop_iff hselect hclears rfl hold hitem hport (hstep.trans hupdate)
              exact hiff.trans ⟨fun h => ⟨rfl, rfl, h⟩, fun h => h.2.2⟩

end Cases

/-! ## Every write -/

/-- For every state of the table and of the manager, every request and every failure: a
write takes effect in full, or is refused with nothing changed, exactly under `PostHolds` and
`PatchHolds`. -/
theorem camera_writes_iff (cfg : Config) (cipher : Cipher) (env : Env) (faults : Faults)
    (server : Server) :
    (∀ camera,
      (Created cfg cipher env server camera (write cfg cipher env faults server (.post camera)) ∨
      Refused server (write cfg cipher env faults server (.post camera))) ↔
        PostHolds cfg env server faults camera) ∧
    ∀ camera patch, (Updated cfg cipher env server camera patch
        (write cfg cipher env faults server (.patch camera patch)) ∨
      Refused server (write cfg cipher env faults server (.patch camera patch))) ↔
        PatchHolds cfg cipher env server faults camera patch :=
  ⟨post_iff cfg cipher { env with faults } server, patch_iff cfg cipher { env with faults } server⟩

/-! ## Two writes that are neither done nor refused -/

/-- Camera 1 is stored with its worker. -/
def oneCamera : Server := (write {} plainCipher {} {} {} (.post exampleCamera)).1

/-- A cipher under another key, which cannot read the password of camera 1. -/
def otherKey : Cipher where
  encrypt _ password := "+" ++ password
  decrypt text :=
    match text.toList with
    | '+' :: password => some (String.ofList password)
    | _ => none
  decrypt_encrypt _ password := by simp

theorem length_gate : 1 ≤ "Gate".length ∧ "Gate".length ≤ 80 := by decide

def rename : CameraPatch := { name := .value ⟨"Gate", length_gate⟩ }

theorem oneCamera_select :
    oneCamera.db.select 1 = some (Database.newRow 1 exampleCamera "secret") := by decide +kernel

/-- A null for the name escapes as `IntegrityError`. A password that cannot be read escapes
as `InvalidToken`, and by then the row is renamed and the worker is gone. -/
theorem update_not_atomic :
    ¬(Updated {} plainCipher {} oneCamera 1 { name := .null }
        (write {} plainCipher {} {} oneCamera (.patch 1 { name := .null })) ∨
      Refused oneCamera (write {} plainCipher {} {} oneCamera (.patch 1 { name := .null }))) ∧
    ¬(Updated {} otherKey {} oneCamera 1 rename (write {} otherKey {} {} oneCamera (.patch 1 rename)) ∨
      Refused oneCamera (write {} otherKey {} {} oneCamera (.patch 1 rename))) ∧
    (oneCamera.db.rows.map Camera.name, (oneCamera.workers 1).isSome) = (["Yard"], true) ∧
    ((write {} otherKey {} {} oneCamera (.patch 1 rename)).1.db.rows.map Camera.name,
      ((write {} otherKey {} {} oneCamera (.patch 1 rename)).1.workers 1).isSome) =
        (["Gate"], false) := by
  refine ⟨?_, ?_, by decide +kernel, by decide +kernel⟩
  · intro h
    have hholds := (patch_iff {} plainCipher {} oneCamera 1 { name := .null }).mp h
    rw [PatchHolds, oneCamera_select] at hholds
    rcases hholds with ⟨_, hsecret⟩ | ⟨_, hempty | ⟨hclears, _⟩⟩
    · cases hsecret
    · cases hempty
    · cases hclears
  · intro h
    have hholds := (patch_iff {} otherKey {} oneCamera 1 rename).mp h
    rw [PatchHolds, oneCamera_select] at hholds
    rcases hholds with ⟨hunset, _⟩ | ⟨_, hempty | ⟨_, _, hworker⟩⟩
    · cases hunset
    · cases hempty
    · rcases hworker rfl with ⟨_, _, hread⟩ | ⟨hsecret, _⟩
      · have hunread : otherKey.decrypt (Database.newRow 1 exampleCamera "secret").passwordEnc =
            none := by decide +kernel
        obtain ⟨password, hpassword, _⟩ := hread
        cases hunread.symm.trans hpassword
      · cases hsecret

end DahuaBridge
