import DahuaBridge.Api.Agreement
import DahuaBridge.Api.Processes
import DahuaBridge.Api.Writes

/-!
# Starting up and shutting down

`startup` and `shutdown` of `app/main.py`, and `stop_all` of the manager. The table outlives the
process of the bridge, and `_workers` and the requests do not.

* `startup_eq`: what `startup` makes of a table.
* `restarts_heal`: whenever the bridge is killed and started again, the workers agree with the
  table, and another restart would change nothing.
* `shutdown_leaves_nothing`: once `stop_all` has come to its end there is no worker, and what
  still runs is on the list of a `stop`.
-/

namespace DahuaBridge

/-! ## `startup` -/

/-- The loop of `startup`, and whether it gets to its end: it catches `InvalidToken` and
`ValueError` only. -/
def startRows (cfg : Config) (cipher : Cipher) (faults : CameraId → Faults) :
    List Camera → Workers → Workers × Bool
  | [], workers => (workers, true)
  | row :: rows, workers =>
    if (faults row.id).secret then
      match cipher.decrypt row.passwordEnc with
      | none => startRows cfg cipher faults rows workers
      | some password =>
        let (workers, entered) := workers.enter cfg row password
        -- the `OSError` of `Popen`; its `ValueError` for an argument comes first
        if entered && row.launchable password && !(faults row.id).popen then (workers, false)
        else startRows cfg cipher faults rows workers
    else (workers, false)

/-- `SELECT * FROM cameras WHERE enabled=1`, and the loop over it. -/
def startup (cfg : Config) (cipher : Cipher) (faults : CameraId → Faults) (db : Database) :
    Workers × Bool :=
  startRows cfg cipher faults (db.rows.filter Camera.enabled) fun _ => none

/-- The worker that the row of a table stands for. -/
def Worker.ofRow (cfg : Config) (cipher : Cipher) (row : Camera) : Option Worker :=
  (cipher.decrypt row.passwordEnc).bind (Worker.entry cfg row)

section Startup

variable {cfg : Config} {cipher : Cipher} {db : Database} {row : Camera} {camera : CameraId}

/-- Without faults the loop gets to its end, and a row that cannot be started stops no other. -/
theorem startRows_eq {rows : List Camera} (hnodup : (rows.map Camera.id).Nodup)
    (workers : Workers) :
    (startRows cfg cipher (fun _ => {}) rows workers).2 = true ∧
      ∀ camera, (∀ row ∈ rows, row.id ≠ camera ∨ cipher.decrypt row.passwordEnc = none) ∧
          (startRows cfg cipher (fun _ => {}) rows workers).1 camera = workers camera ∨
        ∃ row ∈ rows, row.id = camera ∧
          (startRows cfg cipher (fun _ => {}) rows workers).1 camera =
            Worker.ofRow cfg cipher row := by
  induction rows generalizing workers with
  | nil => exact ⟨rfl, fun camera => .inl ⟨fun _ h => absurd h List.not_mem_nil, rfl⟩⟩
  | cons row rows ih =>
    obtain ⟨hnew, hnodup⟩ := List.nodup_cons.mp hnodup
    have hother {camera : CameraId} (hid : row.id = camera) : ∀ other ∈ rows, other.id ≠ camera :=
      fun other hmem hsame => hnew (List.mem_map.mpr ⟨other, hmem, hsame.trans hid.symm⟩)
    unfold startRows
    cases hpassword : cipher.decrypt row.passwordEnc with
    | none =>
      obtain ⟨hdone, hcameras⟩ := ih hnodup workers
      refine ⟨hdone, fun camera => ?_⟩
      rcases hcameras camera with ⟨hnone, heq⟩ | ⟨other, hmem, hid, heq⟩
      · refine .inl ⟨fun other hmem => ?_, heq⟩
        rcases List.mem_cons.mp hmem with rfl | hmem
        · exact .inr hpassword
        · exact hnone other hmem
      · exact .inr ⟨other, List.mem_cons_of_mem _ hmem, hid, heq⟩
    | some password =>
      have hgoes : ((workers.enter cfg row password).2 && row.launchable password &&
          !({} : Faults).popen) = false := Bool.and_false _
      simp only [if_true, hgoes, Bool.false_eq_true, if_false]
      obtain ⟨hdone, hcameras⟩ := ih hnodup (workers.enter cfg row password).1
      refine ⟨hdone, fun camera => ?_⟩
      rcases hcameras camera with ⟨hnone, heq⟩ | ⟨other, hmem, hid, heq⟩
      · by_cases hid : row.id = camera
        · subst hid
          refine .inr ⟨row, List.mem_cons_self, rfl, heq.trans ?_⟩
          rw [Workers.enter_self, Worker.ofRow, hpassword, Option.bind_some]
        · refine .inl ⟨fun other hmem => ?_, heq.trans (Workers.enter_of_ne _ _ _ (Ne.symm hid))⟩
          rcases List.mem_cons.mp hmem with rfl | hmem
          · exact .inl hid
          · exact hnone other hmem
      · exact .inr ⟨other, List.mem_cons_of_mem _ hmem, hid, heq⟩

theorem entry_eq_none {password : String} (h : row.vendor.hasP2P = false) :
    Worker.entry cfg row password = none := by
  rw [Worker.entry, h]
  exact if_neg Bool.false_ne_true

/-- `startup` gives to each camera the worker of its row, if it should have one and its password
can be read. -/
theorem startup_eq (db : Database) (camera : CameraId) :
    (startup cfg cipher (fun _ => {}) db).1 camera =
      (Server.wanted { db } camera).bind (Worker.ofRow cfg cipher) := by
  have hnodup : ((db.rows.filter Camera.enabled).map Camera.id).Nodup :=
    (List.filter_sublist.map _).nodup db.nodup
  rcases (@startRows_eq cfg cipher _ hnodup fun _ => none).2 camera with
    ⟨hnone, heq⟩ | ⟨row, hmem, rfl, heq⟩
  · refine heq.trans ?_
    cases hwanted : Server.wanted { db } camera with
    | none => rfl
    | some row =>
      obtain ⟨hmem, hid, henabled, _⟩ := wanted_eq_some.mp hwanted
      rcases hnone row (List.mem_filter.mpr ⟨hmem, henabled⟩) with hne | hunreadable
      · exact absurd hid hne
      · rw [Option.bind_some, Worker.ofRow, hunreadable, Option.bind_none]
  · obtain ⟨hmem, henabled⟩ := List.mem_filter.mp hmem
    refine heq.trans ?_
    cases hvendor : row.vendor.hasP2P with
    | true =>
      have hwanted : Server.wanted { db } row.id = some row :=
        wanted_eq_some.mpr ⟨hmem, rfl, henabled, hvendor⟩
      rw [hwanted, Option.bind_some]
    | false =>
      have hwanted : Server.wanted { db } row.id = none := by
        rw [Server.wanted, Database.select_of_mem hmem, Option.filter_some, Camera.wantsWorker,
          hvendor, Bool.and_false]
        rfl
      rw [hwanted, Option.bind_none, Worker.ofRow]
      cases cipher.decrypt row.passwordEnc with
      | none => rfl
      | some password => exact entry_eq_none hvendor

end Startup

/-! ## Killed and started again -/

/-- A step of the handlers, or the end of the process at any point and its next start. -/
inductive LifeEvent where
  | api (event : ApiEvent)
  | restart

/-- What a start of the process makes of its last state: SQLite has kept the table. -/
def Api.restarted (cfg : Config) (cipher : Cipher) (api : Api) : Api where
  server := { db := api.server.db, workers := (startup cfg cipher (fun _ => {}) api.server.db).1 }

def Api.live (cfg : Config) (cipher : Cipher) (api : Api) : LifeEvent → Option Api
  | .api event => api.step cfg cipher event
  | .restart => some (api.restarted cfg cipher)

/-- Only the handlers can act on what the table no longer says. -/
def Api.LiveFresh (cipher : Cipher) (api : Api) : LifeEvent → Prop
  | .api event => api.Fresh cipher event
  | .restart => True

instance (cipher : Cipher) (api : Api) (event : LifeEvent) :
    Decidable (api.LiveFresh cipher event) :=
  match event with
  | .api event => inferInstanceAs (Decidable (api.Fresh cipher event))
  | .restart => isTrue trivial

/-- The password of the row can be read, and its id has a port. -/
def Camera.Startable (cfg : Config) (cipher : Cipher) (row : Camera) : Prop :=
  (cipher.decrypt row.passwordEnc).isSome ∧ (cfg.portFor row.id).isSome

/-- Every row can be started, and every worker is the one that its row stands for. -/
structure Server.Sound (cfg : Config) (cipher : Cipher) (server : Server) : Prop where
  startable : ∀ row ∈ server.db.rows, row.Startable cfg cipher
  worker : ∀ camera worker, server.workers camera = some worker →
    worker.camera.id = camera ∧ Worker.ofRow cfg cipher worker.camera = some worker

/-- What the handler is about to start is a row with the password that is in it. -/
def Handler.Holds (cipher : Cipher) : Handler → Prop
  | .addStart row password _ => cipher.decrypt row.passwordEnc = some password
  | .updateStart row password _ => cipher.decrypt row.passwordEnc = some password
  | _ => True

section Restart

variable {cfg : Config} {cipher : Cipher} {server : Server} {handler : Handler} {db : Database}

theorem camera_of_entry {row : Camera} {password : String} {worker : Worker}
    (h : Worker.entry cfg row password = some worker) : worker.camera = row := by
  unfold Worker.entry at h
  split at h
  · obtain ⟨port, _, rfl⟩ := Option.map_eq_some_iff.mp h
    rfl
  · cases h

/-- A row that can be started stands for a worker, if its vendor has P2P. -/
theorem exists_ofRow {row : Camera} (hvendor : row.vendor.hasP2P = true)
    (h : row.Startable cfg cipher) : ∃ worker, Worker.ofRow cfg cipher row = some worker := by
  obtain ⟨password, hpassword⟩ := Option.isSome_iff_exists.mp h.1
  obtain ⟨port, hport⟩ := Option.isSome_iff_exists.mp h.2
  rw [Worker.ofRow, hpassword, Option.bind_some, Worker.entry, if_pos hvendor, hport]
  exact ⟨_, rfl⟩

/-- A transaction leaves the workers, and a row that it writes can be started. -/
theorem addRow_startable (env : Env) (camera : CameraInput)
    (h : ∀ row ∈ server.db.rows, row.Startable cfg cipher) :
    (Handler.addRow cfg cipher env server camera).1.workers = server.workers ∧
      ∀ row ∈ (Handler.addRow cfg cipher env server camera).1.db.rows,
        row.Startable cfg cipher := by
  by_cases hserial : camera.serial.val ∈ server.db.rows.map Camera.serial
  · rw [addRow_of_used hserial]
    exact ⟨rfl, h⟩
  · cases hport : cfg.portFor (server.db.seq + 1 + env.gap) with
    | none =>
      rw [addRow_of_no_port hserial hport]
      exact ⟨rfl, h⟩
    | some port =>
      obtain ⟨db, item, hrows, _, _, _, hadd⟩ :=
        @addRow_of_port cfg cipher env server _ _ _ hserial hport rfl
      rw [hadd]
      refine ⟨rfl, fun row hrow => ?_⟩
      rw [hrows] at hrow
      rcases List.mem_append.mp hrow with hold | hnew
      · exact h row hold
      · rw [List.mem_singleton.mp hnew]
        refine ⟨?_, Option.isSome_of_eq_some hport⟩
        rw [Database.newRow, cipher.decrypt_encrypt]
        rfl

theorem updateRow_startable (env : Env) (camera : CameraId) (patch : CameraPatch)
    (h : ∀ row ∈ server.db.rows, row.Startable cfg cipher) :
    (Handler.updateRow cfg cipher env server camera patch).1.workers = server.workers ∧
      ∀ row ∈ (Handler.updateRow cfg cipher env server camera patch).1.db.rows,
        row.Startable cfg cipher := by
  unfold Handler.updateRow
  split
  · exact ⟨rfl, h⟩
  split
  · exact ⟨rfl, h⟩
  split
  · exact ⟨rfl, h⟩
  · exact ⟨rfl, h⟩
  · next db row hupdate =>
    split
    · exact ⟨rfl, h⟩
    · next result hresult =>
      obtain ⟨old, hold, hselect, hpatch, rfl⟩ := Database.update_eq_ok hupdate
      refine ⟨rfl, fun row' hrow' => ?_⟩
      rcases (Database.mem_replace hold).mp hrow' with rfl | ⟨hmem, _⟩
      · refine ⟨?_, portFor_of_publicCamera hresult⟩
        rcases (CameraPatch.apply_eq_some hpatch).2.2.2 with hsame | ⟨password, hnew⟩
        · rw [hsame]
          exact (h old (Database.mem_of_select hselect).1).1
        · rw [hnew, cipher.decrypt_encrypt]
          rfl
      · exact h row' hmem

theorem Server.Sound.stop (h : server.Sound cfg cipher) (camera : CameraId) :
    Server.Sound cfg cipher { server with workers := server.workers.stop camera } := by
  refine ⟨h.startable, fun other worker hworker => ?_⟩
  by_cases hother : other = camera
  · have hstopped : server.workers.stop camera other = none := hother ▸ Function.update_self ..
    cases hstopped.symm.trans hworker
  · exact h.worker other worker ((Function.update_of_ne hother ..).symm.trans hworker)

theorem Server.Sound.start (h : server.Sound cfg cipher) {row : Camera} {password : String}
    (hpassword : cipher.decrypt row.passwordEnc = some password) (faults : Faults)
    (response : Response) :
    (Handler.finishStart cfg faults server row password response).1.Sound cfg cipher := by
  refine ⟨h.startable, fun camera worker hworker => ?_⟩
  by_cases hcamera : camera = row.id
  · subst hcamera
    have hentry : Worker.entry cfg row password = some worker :=
      (Workers.enter_self cfg server.workers row password).symm.trans hworker
    rw [camera_of_entry hentry, Worker.ofRow, hpassword]
    exact ⟨rfl, hentry⟩
  · exact h.worker camera worker ((Workers.enter_of_ne cfg _ password hcamera).symm.trans hworker)

/-- No step of a handler, fresh or not, leaves a row or a worker that a restart would not. -/
theorem step_sound (env : Env) (h : server.Sound cfg cipher) (hholds : handler.Holds cipher) :
    (handler.step cfg cipher env server).1.Sound cfg cipher := by
  have htable (hworkers : (handler.step cfg cipher env server).1.workers = server.workers ∧
      ∀ row ∈ (handler.step cfg cipher env server).1.db.rows, row.Startable cfg cipher) :
      (handler.step cfg cipher env server).1.Sound cfg cipher :=
    ⟨hworkers.2, hworkers.1 ▸ h.worker⟩
  cases handler with
  | add camera =>
    refine htable ?_
    simp only [Handler.step]
    split
    · exact addRow_startable env camera h.startable
    · exact ⟨rfl, h.startable⟩
  | update camera patch =>
    refine htable ?_
    simp only [Handler.step]
    split
    · exact updateRow_startable env camera patch h.startable
    · exact ⟨rfl, h.startable⟩
  | addStart row password result => exact h.start hholds env.faults _
  | updateStart row password result => exact h.start hholds env.faults _
  | updateStop row result => exact h.stop row.id
  | delete camera => exact h.stop camera
  | deleteRow camera =>
    refine htable ?_
    simp only [Handler.step]
    split
    · exact ⟨rfl, fun row hrow => h.startable row (List.mem_of_mem_filter hrow)⟩
    · exact ⟨rfl, h.startable⟩
  | done response => exact h

theorem step_holds (cfg : Config) (cipher : Cipher) (env : Env) (server : Server)
    (handler : Handler) : (handler.step cfg cipher env server).2.Holds cipher := by
  cases handler with
  | add camera =>
    simp only [Handler.step]
    split
    · by_cases hserial : camera.serial.val ∈ server.db.rows.map Camera.serial
      · rw [addRow_of_used hserial]
        trivial
      · cases hport : cfg.portFor (server.db.seq + 1 + env.gap) with
        | none =>
          rw [addRow_of_no_port hserial hport]
          trivial
        | some port =>
          obtain ⟨db, item, _, _, _, _, hadd⟩ :=
            @addRow_of_port cfg cipher env server _ _ _ hserial hport rfl
          rw [hadd]
          dsimp only
          split
          · exact cipher.decrypt_encrypt ..
          · trivial
    · trivial
  | update camera patch =>
    simp only [Handler.step, Handler.updateRow]
    repeat' split
    all_goals trivial
  | updateStop row result =>
    simp only [Handler.step]
    split
    · split
      · split
        · next password hpassword => exact hpassword
        · trivial
      · trivial
    · trivial
  | deleteRow camera =>
    simp only [Handler.step]
    split <;> trivial
  | addStart | updateStart | delete | done => trivial

theorem wanted_workers {workers : Workers} {camera : CameraId} :
    Server.wanted { db, workers } camera = Server.wanted { db } camera := rfl

/-- `startup` brings the workers in line with a table whose rows can all be started. -/
theorem startup_sound {workers : Workers} (h : Server.Sound cfg cipher { db, workers })
    (camera : CameraId) :
    Server.Agrees { db, workers := (startup cfg cipher (fun _ => {}) db).1 } camera ∧
      ∀ worker, (startup cfg cipher (fun _ => {}) db).1 camera = some worker →
        worker.camera.id = camera ∧ Worker.ofRow cfg cipher worker.camera = some worker := by
  rw [agrees_iff, wanted_workers]
  show Option.map Worker.camera ((startup cfg cipher (fun _ => {}) db).1 camera) = _ ∧ _
  rw [startup_eq]
  cases hwanted : Server.wanted { db } camera with
  | none => exact ⟨rfl, fun _ h => (Option.some_ne_none _ h.symm).elim⟩
  | some row =>
    obtain ⟨hmem, hid, _, hvendor⟩ := wanted_eq_some.mp hwanted
    obtain ⟨worker, hworker⟩ := exists_ofRow hvendor (h.startable row hmem)
    have hcamera : worker.camera = row := by
      obtain ⟨password, _, hentry⟩ := Option.bind_eq_some_iff.mp hworker
      exact camera_of_entry hentry
    rw [Option.bind_some, hworker]
    refine ⟨congrArg some hcamera, fun worker' h => ?_⟩
    obtain rfl := Option.some.inj h
    rw [hcamera]
    exact ⟨hid, hworker⟩

end Restart

/-- What a restart could not lose. -/
structure Api.Durable (cfg : Config) (cipher : Cipher) (api : Api) : Prop where
  sound : api.server.Sound cfg cipher
  ready : ∀ handler ∈ api.handlers, handler.Ready cfg
  holds : ∀ handler ∈ api.handlers, handler.Holds cipher

section Life

variable {cfg : Config} {cipher : Cipher} {api api' : Api}

theorem Api.Durable.restarted (h : api.Durable cfg cipher) :
    (api.restarted cfg cipher).Durable cfg cipher where
  sound := ⟨h.sound.startable, fun camera => (startup_sound h.sound camera).2⟩
  ready _ h := absurd h List.not_mem_nil
  holds _ h := absurd h List.not_mem_nil

theorem Api.Durable.step {event : LifeEvent} (h : api.Durable cfg cipher)
    (hstep : api.live cfg cipher event = some api') : api'.Durable cfg cipher := by
  cases event with
  | restart => exact Option.some.inj hstep ▸ h.restarted
  | api event =>
    cases event with
    | request request =>
      obtain rfl := Option.some.inj hstep
      refine ⟨h.sound, fun handler hmem => ?_, fun handler hmem => ?_⟩
      · rcases List.mem_append.mp hmem with hold | hnew
        · exact h.ready handler hold
        · rw [List.mem_singleton.mp hnew]
          cases request <;> trivial
      · rcases List.mem_append.mp hmem with hold | hnew
        · exact h.holds handler hold
        · rw [List.mem_singleton.mp hnew]
          cases request <;> trivial
    | step i env =>
      simp only [Api.live, Api.step] at hstep
      split at hstep
      · cases hstep
      · cases hstep
      · next handler _ hhandler =>
        obtain rfl := Option.some.inj hstep
        have hmem := List.mem_of_getElem? hhandler
        have hready := h.ready handler hmem
        refine ⟨step_sound env h.sound (h.holds handler hmem), fun other hother => ?_,
          fun other hother => ?_⟩
        · rcases List.mem_or_eq_of_mem_set hother with hold | rfl
          · exact h.ready other hold
          · exact step_ready cipher env api.server hready
        · rcases List.mem_or_eq_of_mem_set hother with hold | rfl
          · exact h.holds other hold
          · exact step_holds cfg cipher env api.server handler

/-- After a restart the handlers' invariant holds, whatever the handlers before it did. -/
theorem inv_restarted (h : api.Durable cfg cipher) : (api.restarted cfg cipher).Inv cfg where
  ready _ h := absurd h List.not_mem_nil
  settled camera := .inl (startup_sound h.sound camera).1

/-- Workers that agree with the table are those that `startup` makes of it. -/
theorem startup_of_agrees {server : Server} (hsound : server.Sound cfg cipher)
    (hagrees : ∀ camera, server.Agrees camera) :
    (startup cfg cipher (fun _ => {}) server.db).1 = server.workers := by
  funext camera
  have hcamera := agrees_iff.mp (hagrees camera)
  rw [startup_eq, ← @wanted_workers server.db server.workers, ← hcamera]
  cases hworker : server.workers camera with
  | none => rfl
  | some worker => exact (hsound.worker camera worker hworker).2

/-- Without a handler on its way every camera agrees. -/
theorem Api.Inv.agrees (h : api.Inv cfg)
    (hdone : ∀ handler ∈ api.handlers, handler.isDone = true) (camera : CameraId) :
    api.server.Agrees camera := by
  rcases h.settled camera with hagrees | ⟨handler, hmem, howes⟩
  · exact hagrees
  · have hanswered := hdone handler hmem
    cases handler with
    | done response => exact howes.elim
    | add | addStart | update | updateStop | updateStart | delete | deleteRow => cases hanswered

theorem durable_init : Api.Durable cfg cipher {} := by
  refine ⟨⟨?_, fun _ _ h => (Option.some_ne_none _ h.symm).elim⟩, ?_, ?_⟩ <;>
    exact fun _ h => absurd h List.not_mem_nil

/-- The bridge is killed and started again at any point, any number of times. Whatever the
handlers did before the last of these starts, the workers agree with the table in every later
state where all requests have completed, if the handlers since then acted on what the table
said; and one more restart there would change nothing. -/
theorem restarts_heal {before after : List LifeEvent} {killed : Api}
    (hbefore : Run.run (Api.live cfg cipher) before {} = some killed)
    (hfresh : Run.Along (Api.live cfg cipher) (Api.LiveFresh cipher) after
      (killed.restarted cfg cipher))
    (hafter : Run.run (Api.live cfg cipher) after (killed.restarted cfg cipher) = some api)
    (hdone : ∀ handler ∈ api.handlers, handler.isDone = true) :
    (∀ camera, api.server.Agrees camera) ∧ (api.restarted cfg cipher).server = api.server := by
  have hkilled : killed.Durable cfg cipher :=
    Run.run_invariant durable_init (fun _ _ _ h hstep => h.step hstep) hbefore
  have hinv : api.Inv cfg ∧ api.Durable cfg cipher := by
    refine Run.run_invariant_along (I := fun api => api.Inv cfg ∧ api.Durable cfg cipher)
      ⟨inv_restarted hkilled, hkilled.restarted⟩ ?_ hfresh hafter
    rintro event t t' hmeets ⟨hinv, hdurable⟩ hstep
    refine ⟨?_, hdurable.step hstep⟩
    cases event with
    | restart => exact Option.some.inj hstep ▸ inv_restarted hdurable
    | api event => exact hinv.step hmeets hstep
  have hagrees := hinv.1.agrees hdone
  refine ⟨hagrees, ?_⟩
  rw [Api.restarted, startup_of_agrees hinv.2.sound hagrees]

/-- A handler has left a worker without a row; the bridge is killed while a camera is added. -/
def staleThenKilled : List LifeEvent :=
  (staleStart ++ [ApiEvent.request (.post exampleCamera), ApiEvent.step 3 {}]).map LifeEvent.api

/-- That camera is disabled, in the bridge that has been started again. -/
def disabledAfter : List LifeEvent :=
  [.api (.request (.patch 2 { enabled := .value false })), .api (.step 0 {}), .api (.step 0 {})]

theorem restarts_heal_stale : ∃ killed api,
    Run.run (Api.live {} plainCipher) staleThenKilled {} = some killed ∧
      (killed.server.workers 1).isSome = true ∧ killed.server.db.select 1 = none ∧
      Run.run (Api.live {} plainCipher) disabledAfter (killed.restarted {} plainCipher) = some api ∧
      ∀ camera, api.server.Agrees camera := by
  have hview : (Run.run (Api.live {} plainCipher) staleThenKilled {}).map (fun killed =>
      ((killed.server.workers 1).isSome, killed.server.db.select 1,
        decide (Run.Along (Api.live {} plainCipher) (Api.LiveFresh plainCipher) disabledAfter
          (killed.restarted {} plainCipher)),
        (Run.run (Api.live {} plainCipher) disabledAfter (killed.restarted {} plainCipher)).map
          (·.handlers.all Handler.isDone))) = some (true, none, true, some true) := by
    decide +kernel
  obtain ⟨killed, hkilled, hview⟩ := Option.map_eq_some_iff.mp hview
  obtain ⟨hworker, hview⟩ := Prod.mk.inj hview
  obtain ⟨hrow, hview⟩ := Prod.mk.inj hview
  obtain ⟨hfresh, hview⟩ := Prod.mk.inj hview
  obtain ⟨api, hapi, hdone⟩ := Option.map_eq_some_iff.mp hview
  exact ⟨killed, api, hkilled, hworker, hrow, hapi,
    (restarts_heal hkilled (of_decide_eq_true hfresh) hapi (List.all_eq_true.mp hdone)).1⟩

end Life

/-! ## `stop_all` -/

/-- `list(self._workers)`, in the order in which the workers were entered. -/
def Sys.cameraIds (s : Sys) : List CameraId :=
  s.workerHeap.zipIdx.filterMap fun (thread, w) =>
    if s.workers thread.worker.camera.id = some w then some thread.worker.camera.id else none

/-- The manager, with the thread that runs `stop_all`. -/
structure Shutdown where
  sys : Sys := {}
  /-- The ids that `stop_all` has read and not stopped yet. -/
  remaining : Option (List CameraId) := none
  /-- The camera whose `stop` it is in. -/
  stopping : Option CameraId := none

inductive ShutdownEvent where
  /-- `stop_all` reads the ids under `_lock`. -/
  | read
  /-- Its next call of `stop` takes the lifecycle lock. -/
  | stopNext
  | manager (event : Event)

/-- The event is a call of `start` for the camera. -/
def Event.starts (camera : CameraId) : Event → Bool
  | .start row _ => row.id = camera
  | _ => false

namespace Shutdown

def step (cfg : Config) (s : Shutdown) : ShutdownEvent → Option Shutdown
  | .read =>
    match s.remaining with
    | none => some { s with remaining := some s.sys.cameraIds }
    | some _ => none
  | .stopNext =>
    match s.remaining, s.stopping with
    | some (camera :: remaining), none =>
      (s.sys.step cfg (.stop camera)).map fun sys =>
        { sys, remaining := some remaining, stopping := some camera }
    | _, _ => none
  | .manager event =>
    (s.sys.step cfg event).map fun sys =>
      { s with
        sys
        stopping := match event with
          -- the lock says that this is the `stop` of `stop_all`
          | .stopReturns camera => if s.stopping = some camera then none else s.stopping
          | _ => s.stopping }

/-- No `start` of the camera is between its parts when the ids are read, and none is called
after that. -/
def Quiet (camera : CameraId) (s : Shutdown) : ShutdownEvent → Prop
  | .read => s.sys.starting camera = none
  | .stopNext => True
  | .manager event => s.remaining = none ∨ event.starts camera = false

instance (camera : CameraId) (s : Shutdown) (event : ShutdownEvent) :
    Decidable (s.Quiet camera event) :=
  match event with
  | .read => inferInstanceAs (Decidable (s.sys.starting camera = none))
  | .stopNext => isTrue trivial
  | .manager event => inferInstanceAs (Decidable (s.remaining = none ∨ event.starts camera = false))

/-- Once the ids have been read, the camera's worker is still to be stopped, if it has one. -/
structure Inv (camera : CameraId) (s : Shutdown) : Prop where
  sys : s.sys.Inv
  idle : ∀ remaining, s.remaining = some remaining → s.sys.starting camera = none
  listed : ∀ remaining, s.remaining = some remaining → (s.sys.workers camera).isSome →
    camera ∈ remaining

section Shutdown

variable {cfg : Config} {camera : CameraId} {s s' : Shutdown} {sys : Sys}

theorem mem_cameraIds {s : Sys} (hinv : s.Inv) {w : WorkerRef} (hw : s.workers camera = some w) :
    camera ∈ s.cameraIds := by
  obtain ⟨services, hkey⟩ := hinv.owner camera w hw
  rw [Sys.keys, List.getElem?_map, Option.map_eq_some_iff] at hkey
  obtain ⟨thread, hthread, hkey⟩ := hkey
  obtain rfl : thread.worker.camera.id = camera := congrArg Prod.fst hkey
  refine List.mem_filterMap.mpr ⟨(thread, w), List.mem_zipIdx_iff_getElem?.mpr hthread, ?_⟩
  exact if_pos hw

/-- Where no worker is to be made none is made, but by a new call of `start`. -/
theorem step_quiet {s s' : Sys} {event : Event} (hinv : s.Inv) (hidle : s.starting camera = none)
    (hstart : ∀ row password, event = .start row password → row.id ≠ camera)
    (hstep : s.step cfg event = some s') :
    s'.starting camera = none ∧
      (s'.workers camera = s.workers camera ∨ s'.workers camera = none) := by
  have hother (hcall : event.call = none) (hcreate : ∀ camera, event ≠ .createWorker camera) :
      s'.starting camera = none ∧
        (s'.workers camera = s.workers camera ∨ s'.workers camera = none) := by
    obtain ⟨hworkers, hstarting⟩ := Sys.step_idle hinv hcall hcreate hstep
    exact ⟨(hstarting camera).trans hidle, .inl (congrFun hworkers camera)⟩
  cases event with
  | start row password =>
    have hne := (hstart row password rfl).symm
    obtain ⟨_, rfl⟩ := Sys.start_eq_some hstep
    exact ⟨(Sys.starting_popWorker_of_ne _ hne).trans hidle, .inl (Function.update_of_ne hne ..)⟩
  | stop stopped =>
    obtain ⟨_, rfl⟩ := Sys.stop_eq_some hstep
    by_cases hcamera : camera = stopped
    · subst hcamera
      obtain ⟨refs, hlock⟩ := s.lock_popWorker camera .stop
      exact ⟨Sys.starting_of_lock hlock, .inr (Function.update_self ..)⟩
    · exact ⟨(Sys.starting_popWorker_of_ne _ hcamera).trans hidle,
        .inl (Function.update_of_ne hcamera ..)⟩
  | createWorker created =>
    obtain ⟨row, password, hlock, hcases⟩ := Sys.createWorker_eq_some hstep
    have hne : camera ≠ created := by
      rintro rfl
      cases (Sys.starting_of_lock hlock).symm.trans hidle
    rcases hcases with rfl | ⟨port, _, rfl⟩
    · exact ⟨(Sys.starting_congr (Function.update_of_ne hne ..)).trans hidle, .inl rfl⟩
    · refine ⟨(Sys.starting_congr (Function.update_of_ne hne ..)).trans hidle, .inl ?_⟩
      exact Function.update_of_ne hne ..
  | _ => exact hother rfl fun _ => Event.noConfusion

theorem Inv.step {event : ShutdownEvent} (h : s.Inv camera) (hquiet : s.Quiet camera event)
    (hstep : s.step cfg event = some s') : s'.Inv camera := by
  cases event with
  | read =>
    simp only [Shutdown.step] at hstep
    split at hstep
    · obtain rfl := Option.some.inj hstep
      refine ⟨h.sys, fun _ _ => hquiet, fun remaining hread hworker => ?_⟩
      obtain ⟨w, hw⟩ := Option.isSome_iff_exists.mp hworker
      exact Option.some.inj hread ▸ mem_cameraIds h.sys hw
    · cases hstep
  | stopNext =>
    simp only [Shutdown.step] at hstep
    split at hstep
    · next stopped remaining hread _ =>
      obtain ⟨sys, hsys, rfl⟩ := Option.map_eq_some_iff.mp hstep
      obtain ⟨hidle, hworkers⟩ := step_quiet h.sys (h.idle _ hread)
        (fun _ _ h => Event.noConfusion h) hsys
      refine ⟨(h.sys.step hsys).1, fun _ _ => hidle, fun _ hread' hworker => ?_⟩
      obtain rfl := Option.some.inj hread'
      obtain ⟨_, rfl⟩ := Sys.stop_eq_some hsys
      by_cases hcamera : camera = stopped
      · subst hcamera
        have hpopped : (s.sys.popWorker camera .stop).workers camera = none :=
          Function.update_self ..
        rw [hpopped] at hworker
        cases hworker
      · have hsame : (s.sys.popWorker stopped .stop).workers camera = s.sys.workers camera :=
          Function.update_of_ne hcamera ..
        rw [hsame] at hworker
        exact (List.mem_cons.mp (h.listed _ hread hworker)).resolve_left hcamera
    · cases hstep
  | manager event =>
    obtain ⟨sys, hsys, rfl⟩ := Option.map_eq_some_iff.mp hstep
    have hkept (remaining : List CameraId) (hread : s.remaining = some remaining) :
        sys.starting camera = none ∧
          (sys.workers camera = s.sys.workers camera ∨ sys.workers camera = none) := by
      refine step_quiet h.sys (h.idle _ hread) (fun row password hevent => ?_) hsys
      subst hevent
      have hread : s.remaining ≠ none := by
        rw [hread]
        exact Option.some_ne_none _
      exact of_decide_eq_false (hquiet.resolve_left hread)
    refine ⟨(h.sys.step hsys).1, fun remaining hread => (hkept remaining hread).1, ?_⟩
    intro remaining hread hworker
    rcases (hkept remaining hread).2 with hsame | hnone
    · exact h.listed remaining hread (hsame ▸ hworker)
    · have hworker : (sys.workers camera).isSome := hworker
      rw [hnone] at hworker
      cases hworker

theorem inv_init (camera : CameraId) : Inv camera {} where
  sys := Sys.inv_init
  idle _ h := (Option.some_ne_none _ h.symm).elim
  listed _ h := (Option.some_ne_none _ h.symm).elim

/-- Once `stop_all` has taken the lock for its last `stop`, and at every time after that, the
camera has no worker, and a process of it that is still alive is one that a `stop` with the
camera's lock is about to terminate; if no `start` of the camera was between its parts when the
ids were read, and none has been called since. -/
theorem shutdown_leaves_nothing {events : List ShutdownEvent}
    (hquiet : Run.Along (Shutdown.step cfg) (Quiet camera) events {})
    (hrun : Run.run (Shutdown.step cfg) events {} = some s) (hdone : s.remaining = some []) :
    s.sys.workers camera = none ∧
      ∀ (ref : ServiceRef) (t : ServiceThread), s.sys.serviceHeap[ref]? = some t →
        t.cameraId = camera → t.alive = true →
        ∃ refs, s.sys.lock camera = some (.stop refs) ∧ ref ∈ refs := by
  have hinv : s.Inv camera :=
    Run.run_invariant_along (inv_init camera) (fun _ _ _ hquiet h hstep => h.step hquiet hstep)
      hquiet hrun
  have hnone : s.sys.workers camera = none := by
    by_contra hworker
    exact List.not_mem_nil (hinv.listed [] hdone (Option.isSome_iff_ne_none.mpr hworker))
  refine ⟨hnone, fun ref t ht hcamera halive => ?_⟩
  have hcovers := hinv.sys.covered ref t ht halive
  have hidle := hinv.idle [] hdone
  subst hcamera
  cases hlock : s.sys.lock t.cameraId with
  | none =>
    rw [Sys.covers_iff_records (Sys.remaining_of_free hlock)] at hcovers
    obtain ⟨w, _, hw, _⟩ := hcovers
    cases hnone.symm.trans hw
  | some task =>
    cases task with
    | stop refs => exact ⟨refs, rfl, (Sys.covers_iff_mem hlock rfl).mp hcovers⟩
    | start row password refs => cases (Sys.starting_of_lock hlock).symm.trans hidle
    | launch w => cases hnone.symm.trans (hinv.sys.holder _ _ hlock).1
    | spawn w =>
      have hremaining : s.sys.remaining t.cameraId = none := by
        rw [Sys.remaining, hlock]
        rfl
      rw [Sys.covers_iff_records hremaining] at hcovers
      obtain ⟨w, _, hw, _⟩ := hcovers
      cases hnone.symm.trans hw

/-- The process of camera 1 has exited and is to be restarted when the bridge shuts down. -/
def stoppedBeforeRestart : List ShutdownEvent :=
  [.manager (.start exampleRow "secret"), .manager (.createWorker 1), .manager (.launch 1 true),
    .manager (.spawn 1), .manager (.exit 0 75), .manager (.endOutput 0),
    .manager (.handleExit 0 10 1), .read, .stopNext, .manager (.kill 1 (-15)),
    .manager (.stopReturns 1),
    .manager (.restart 0 true 0 true)]

theorem shutdown_leaves_nothing_restart : ∃ s : Shutdown,
    Run.run (Shutdown.step {}) stoppedBeforeRestart {} = some s ∧ s.sys.serviceHeap.length = 1 ∧
      s.sys.workers 1 = none := by
  have hview : (Run.run (Shutdown.step {}) stoppedBeforeRestart {}).map (fun s =>
      (s.remaining, s.sys.serviceHeap.length)) = some (some [], 1) := by decide +kernel
  obtain ⟨s, hs, hview⟩ := Option.map_eq_some_iff.mp hview
  obtain ⟨hdone, hlength⟩ := Prod.mk.inj hview
  have hquiet : Run.Along (Shutdown.step {}) (Quiet 1) stoppedBeforeRestart {} := by decide +kernel
  exact ⟨s, hs, hlength, (shutdown_leaves_nothing hquiet hs hdone).1⟩

end Shutdown

end Shutdown

end DahuaBridge
