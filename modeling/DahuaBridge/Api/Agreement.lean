import DahuaBridge.Api.Handlers

/-!
# The table and the running workers

A handler acts on the manager with the row that its own transaction has read, and
nothing keeps another handler from changing the row in between.

* `Handler.Fresh`: the handler's next call of the manager still fits the table, and a stop that
  a start has to follow can read the password.
* `Handler.Owes`: the handler has yet to bring the manager in line with the table.
* `workers_agree`: in a run whose steps are all fresh, the workers agree with the
  table once no handler is left.
-/

namespace DahuaBridge

/-! ## Agreement -/

/-- The camera has a worker exactly when its row says so, and the worker has that row. -/
structure Server.Agrees (server : Server) (camera : CameraId) : Prop where
  worker_iff : (server.workers camera).isSome ↔
    ∃ row ∈ server.db.rows, row.id = camera ∧ row.enabled = true ∧ row.vendor.hasP2P = true
  camera_eq : ∀ worker row, server.workers camera = some worker → row ∈ server.db.rows →
    row.id = camera → worker.camera = row

/-- The row that the camera's worker should have, if it should have one. -/
def Server.wanted (server : Server) (camera : CameraId) : Option Camera :=
  (server.db.select camera).filter Camera.wantsWorker

theorem wanted_eq_some {server : Server} {camera : CameraId} {row : Camera} :
    server.wanted camera = some row ↔
      row ∈ server.db.rows ∧ row.id = camera ∧ row.enabled = true ∧ row.vendor.hasP2P = true := by
  rw [Server.wanted, Option.filter_eq_some_iff, Camera.wantsWorker, Bool.and_eq_true]
  constructor
  · rintro ⟨hselect, hwants⟩
    obtain ⟨hmem, hid⟩ := Database.mem_of_select hselect
    exact ⟨hmem, hid, hwants⟩
  · rintro ⟨hmem, rfl, hwants⟩
    exact ⟨Database.select_of_mem hmem, hwants⟩

theorem agrees_iff {server : Server} {camera : CameraId} :
    server.Agrees camera ↔ (server.workers camera).map Worker.camera = server.wanted camera := by
  constructor
  · rintro ⟨hiff, heq⟩
    refine Option.ext fun row => ?_
    rw [Option.map_eq_some_iff, wanted_eq_some]
    constructor
    · rintro ⟨worker, hworker, rfl⟩
      obtain ⟨row, hmem, hid, hwants⟩ := hiff.mp (by rw [hworker]; rfl)
      rw [heq worker row hworker hmem hid]
      exact ⟨hmem, hid, hwants⟩
    · rintro ⟨hmem, hid, hwants⟩
      obtain ⟨worker, hworker⟩ := Option.isSome_iff_exists.mp (hiff.mpr ⟨row, hmem, hid, hwants⟩)
      exact ⟨worker, hworker, heq worker row hworker hmem hid⟩
  · intro h
    constructor
    · rw [← Option.isSome_map (f := Worker.camera), h, Option.isSome_iff_exists]
      simp only [wanted_eq_some]
    · intro worker row hworker hmem hid
      rw [hworker, Option.map_some, eq_comm, wanted_eq_some] at h
      exact Database.eq_of_mem h.1 hmem (h.2.1.trans hid.symm)

/-! ## What a handler is about to do -/

/-- The row that the handler has read is still the one in the table, and its password can be
read where the row wants a worker; the row that the handler deletes has no worker. -/
def Handler.Fresh (cipher : Cipher) (env : Env) (server : Server) : Handler → Prop
  | .addStart row _ _ => server.db.select row.id = some row
  | .updateStop row _ => server.db.select row.id = none ∨ server.db.select row.id = some row ∧
      (row.wantsWorker = true →
        env.faults.secret = true ∧ (cipher.decrypt row.passwordEnc).isSome = true)
  | .updateStart row _ _ => server.db.select row.id = some row
  | .deleteRow camera => server.workers camera = none
  | _ => True

/-- The handler has yet to bring the camera's worker in line with the table. -/
def Handler.Owes (server : Server) (camera : CameraId) : Handler → Prop
  | .addStart row _ _ => row.id = camera ∧ server.db.select camera = some row
  | .updateStop row _ => row.id = camera ∧ server.db.select camera = some row
  | .updateStart row _ _ => row.id = camera ∧ server.db.select camera = some row
  | .deleteRow camera' => camera' = camera
  | _ => False

/-- What the handler has read can be acted on. -/
def Handler.Ready (cfg : Config) : Handler → Prop
  | .addStart row _ _ => row.wantsWorker = true ∧ (cfg.portFor row.id).isSome
  | .updateStop row _ => (cfg.portFor row.id).isSome
  | .updateStart row _ _ => row.wantsWorker = true ∧ (cfg.portFor row.id).isSome
  | _ => True

/-! ## One step -/

/-- A step of a handler settles the camera, or leaves to the handler that takes it
over, or changes nothing for the others. -/
def Settles (server server' : Server) (handler next : Handler) (camera : CameraId) : Prop :=
  server'.Agrees camera ∨ next.Owes server' camera ∨
    ((server.Agrees camera → server'.Agrees camera) ∧ ¬ handler.Owes server camera ∧
      ∀ other : Handler, other.Owes server camera → other.Owes server' camera)

section Step

variable {cfg : Config} {cipher : Cipher} {env : Env} {server server' : Server}
  {handler next : Handler} {camera : CameraId}

/-- Nothing has changed for the camera. -/
theorem Settles.of_same (hselect : server'.db.select camera = server.db.select camera)
    (hworkers : server'.workers camera = server.workers camera)
    (howes : ¬ handler.Owes server camera) : Settles server server' handler next camera := by
  refine .inr (.inr ⟨fun hagrees => ?_, howes, fun other hother => ?_⟩)
  · rw [agrees_iff, Server.wanted, hselect, hworkers]
    exact agrees_iff.mp hagrees
  · unfold Handler.Owes at hother ⊢
    rw [hselect]
    exact hother

theorem Settles.refl (howes : ¬ handler.Owes server camera) :
    Settles server server handler next camera := .of_same rfl rfl howes

/-- Where there is no row, only a deletion is still to come. -/
theorem Handler.Owes.of_none (h : handler.Owes server camera)
    (hnone : server.db.select camera = none) : handler = .deleteRow camera := by
  cases handler with
  | addStart row password result => cases hnone.symm.trans h.2
  | updateStop row result => cases hnone.symm.trans h.2
  | updateStart row password result => cases hnone.symm.trans h.2
  | deleteRow camera' => exact congrArg Handler.deleteRow h
  | add camera => exact h.elim
  | update camera patch => exact h.elim
  | delete camera => exact h.elim
  | done response => exact h.elim

theorem settles_add (camera : CameraInput) (c : CameraId) :
    Settles server (Handler.addRow cfg cipher env server camera).1 (.add camera)
      (Handler.addRow cfg cipher env server camera).2 c := by
  unfold Handler.addRow
  by_cases hserial : camera.serial.val ∈ server.db.rows.map Camera.serial
  · rw [server.db.insert_eq_none env.gap _ hserial]
    exact .refl id
  · obtain ⟨db, hinsert, hrows, hseq⟩ := server.db.insert_eq_some env.gap
      (cipher.encrypt env.nonce camera.password) hserial
    rw [hinsert]
    generalize hrow : Database.newRow (server.db.seq + 1 + env.gap) camera
      (cipher.encrypt env.nonce camera.password) = row at hrows
    have hnew : server.db.seq < row.id := by
      rw [← hrow]
      exact server.db.seq_lt_next env.gap
    obtain ⟨hselect, hnone, hothers⟩ := Database.select_append hrows hnew
    simp only
    split
    · exact .refl id
    · next result _ =>
      by_cases hc : c = row.id
      · subst hc
        split
        · exact .inr (.inl ⟨rfl, hselect⟩)
        · next hwants =>
          -- the new row wants no worker, and there is none
          refine .inr (.inr ⟨fun hagrees => ?_, id, fun other hother => ?_⟩)
          · rw [agrees_iff, Server.wanted] at hagrees ⊢
            rw [hnone] at hagrees
            rw [hselect, hagrees]
            have hidle : row.wantsWorker = false := by
              rw [← Bool.not_eq_true, ← hrow]
              exact hwants
            rw [Option.filter_some, hidle]
            rfl
          · rw [hother.of_none hnone]
            rfl
      · exact .of_same (hothers c hc) rfl id

theorem settles_update (camera : CameraId) (patch : CameraPatch) (c : CameraId) :
    Settles server (Handler.updateRow cfg cipher env server camera patch).1 (.update camera patch)
      (Handler.updateRow cfg cipher env server camera patch).2 c := by
  unfold Handler.updateRow
  split
  · exact .refl id
  split
  · exact .refl id
  split
  · exact .refl id
  · exact .refl id
  · next db row hupdate =>
    split
    · exact .refl id
    · next result _ =>
      obtain ⟨_, hold, _, _, rfl⟩ := Database.update_eq_ok hupdate
      by_cases hc : c = row.id
      · subst hc
        exact .inr (.inl ⟨rfl, (Database.select_replace hold).1⟩)
      · exact .of_same ((Database.select_replace hold).2 c hc) rfl id

/-- After a start with the row of the table, the camera agrees with it. -/
theorem settles_start {row : Camera} {password : String} (faults : Faults) {response : Response}
    (hready : row.wantsWorker = true ∧ (cfg.portFor row.id).isSome)
    (hfresh : server.db.select row.id = some row)
    (howes : ∀ camera, camera ≠ row.id → ¬ handler.Owes server camera) (c : CameraId) :
    Settles server (Handler.finishStart cfg faults server row password response).1 handler
      (Handler.finishStart cfg faults server row password response).2 c := by
  obtain ⟨port, hport⟩ := Option.isSome_iff_exists.mp hready.2
  have hvendor : row.vendor.hasP2P = true := by
    have hwants := hready.1
    rw [Camera.wantsWorker, Bool.and_eq_true] at hwants
    exact hwants.2
  obtain ⟨_, hself, hothers⟩ := server.workers.enter_eq password hvendor hport
  by_cases hc : c = row.id
  · subst hc
    left
    rw [agrees_iff, Server.wanted]
    simp only [Handler.finishStart, Workers.start, hself, hfresh, Option.filter_some, hready.1]
    rfl
  · exact .of_same rfl (hothers c hc) (howes c hc)

theorem settles_updateStop {row : Camera} {result : PublicCamera}
    (hfresh : (Handler.updateStop row result).Fresh cipher env server) (c : CameraId) :
    Settles server ((Handler.updateStop row result).step cfg cipher env server).1
      (.updateStop row result) ((Handler.updateStop row result).step cfg cipher env server).2 c := by
  simp only [Handler.step]
  by_cases hc : c = row.id
  · subst hc
    have hstopped : server.workers.stop row.id row.id = none := Function.update_self ..
    rcases hfresh with hselect | ⟨hselect, hreads⟩
    · left
      rw [agrees_iff, Server.wanted, hselect]
      exact congrArg (Option.map Worker.camera) hstopped
    · cases hwants : row.wantsWorker with
      | true =>
        -- the start is still to come
        obtain ⟨hsecret, hreadable⟩ := hreads hwants
        obtain ⟨password, hpassword⟩ := Option.isSome_iff_exists.mp hreadable
        rw [if_pos rfl, if_pos hsecret, hpassword]
        exact .inr (.inl ⟨rfl, hselect⟩)
      | false =>
        left
        rw [agrees_iff, Server.wanted, hselect, Option.filter_some, hwants]
        exact congrArg (Option.map Worker.camera) hstopped
  · refine .of_same rfl (Function.update_of_ne hc ..) ?_
    exact fun howes => hc howes.1.symm

theorem settles_delete (camera c : CameraId) :
    Settles server ((Handler.delete camera).step cfg cipher env server).1 (.delete camera)
      ((Handler.delete camera).step cfg cipher env server).2 c := by
  by_cases hc : c = camera
  · exact .inr (.inl hc.symm)
  · exact .of_same rfl (Function.update_of_ne hc ..) id

theorem settles_deleteRow {camera : CameraId} (hfresh : server.workers camera = none) (c : CameraId) :
    Settles server ((Handler.deleteRow camera).step cfg cipher env server).1 (.deleteRow camera)
      ((Handler.deleteRow camera).step cfg cipher env server).2 c := by
  simp only [Handler.step]
  by_cases hc : c = camera
  · subst hc
    left
    split
    · rw [agrees_iff, Server.wanted, Database.select_delete.1]
      exact congrArg (Option.map Worker.camera) hfresh
    · next hselect =>
      rw [agrees_iff, Server.wanted, hselect, hfresh]
      rfl
  · split
    · exact .of_same (Database.select_delete.2 c hc) rfl fun howes => hc howes.symm
    · exact .refl fun howes => hc howes.symm

/-- A fresh step settles every camera. -/
theorem step_settles (hready : handler.Ready cfg) (hfresh : handler.Fresh cipher env server)
    (c : CameraId) : Settles server (handler.step cfg cipher env server).1 handler
      (handler.step cfg cipher env server).2 c := by
  cases handler with
  | add camera =>
    simp only [Handler.step]
    split
    · exact settles_add camera c
    · exact .refl id
  | addStart row password result =>
    refine settles_start env.faults hready hfresh (fun camera hne howes => ?_) c
    exact hne howes.1.symm
  | update camera patch =>
    simp only [Handler.step]
    split
    · exact settles_update camera patch c
    · exact .refl id
  | updateStop row result => exact settles_updateStop hfresh c
  | updateStart row password result =>
    refine settles_start env.faults hready hfresh (fun camera hne howes => ?_) c
    exact hne howes.1.symm
  | delete camera => exact settles_delete camera c
  | deleteRow camera => exact settles_deleteRow hfresh c
  | done response => exact .refl id

/-- What a handler has read can be acted on. -/
theorem step_ready (cipher : Cipher) (env : Env) (server : Server) (hready : handler.Ready cfg) :
    (handler.step cfg cipher env server).2.Ready cfg := by
  cases handler with
  | add camera =>
    simp only [Handler.step, Handler.addRow]
    split
    · by_cases hserial : camera.serial.val ∈ server.db.rows.map Camera.serial
      · rw [server.db.insert_eq_none env.gap _ hserial]
        trivial
      · obtain ⟨db, hinsert, _, _⟩ := server.db.insert_eq_some env.gap
          (cipher.encrypt env.nonce camera.password) hserial
        rw [hinsert]
        simp only
        split
        · trivial
        · next result hresult =>
          split
          · next hwants => exact ⟨hwants, portFor_of_publicCamera hresult⟩
          · trivial
    · trivial
  | update camera patch =>
    simp only [Handler.step, Handler.updateRow]
    split
    · split
      · trivial
      split
      · trivial
      split
      · trivial
      · trivial
      · split
        · trivial
        · next result hresult => exact portFor_of_publicCamera hresult
    · trivial
  | addStart row password result => trivial
  | updateStop row result =>
    simp only [Handler.step]
    split
    · next hwants =>
      split
      · split
        · exact ⟨hwants, hready⟩
        · trivial
      · trivial
    · trivial
  | updateStart row password result => trivial
  | delete camera => trivial
  | deleteRow camera =>
    simp only [Handler.step]
    split <;> trivial
  | done response => trivial

end Step

/-! ## Every run -/

instance (cipher : Cipher) (env : Env) (server : Server) (handler : Handler) :
    Decidable (handler.Fresh cipher env server) :=
  match handler with
  | .addStart row _ _ => inferInstanceAs (Decidable (server.db.select row.id = some row))
  | .updateStop row _ => inferInstanceAs
      (Decidable (server.db.select row.id = none ∨ server.db.select row.id = some row ∧
        (row.wantsWorker = true →
          env.faults.secret = true ∧ (cipher.decrypt row.passwordEnc).isSome = true)))
  | .updateStart row _ _ => inferInstanceAs (Decidable (server.db.select row.id = some row))
  | .deleteRow camera =>
    decidable_of_iff ((server.workers camera).isNone = true) Option.isNone_iff_eq_none
  | .add _ => isTrue trivial
  | .update _ _ => isTrue trivial
  | .delete _ => isTrue trivial
  | .done _ => isTrue trivial

/-- The handler that takes the step is fresh. -/
def Api.Fresh (cipher : Cipher) (api : Api) : ApiEvent → Prop
  | .request _ => True
  | .step i env => ∀ handler ∈ api.handlers[i]?, handler.Fresh cipher env api.server

instance (cipher : Cipher) (api : Api) (event : ApiEvent) : Decidable (api.Fresh cipher event) :=
  match event with
  | .request _ => isTrue trivial
  | .step i env =>
    inferInstanceAs (Decidable (∀ handler ∈ api.handlers[i]?, handler.Fresh cipher env api.server))

/-- Each camera agrees, or a handler is on its way to make it so. -/
structure Api.Inv (cfg : Config) (api : Api) : Prop where
  ready : ∀ handler ∈ api.handlers, handler.Ready cfg
  settled : ∀ camera, api.server.Agrees camera ∨
    ∃ handler ∈ api.handlers, handler.Owes api.server camera

theorem Api.Inv.step {cfg : Config} {cipher : Cipher} {api api' : Api} {event : ApiEvent}
    (h : api.Inv cfg) (hfresh : api.Fresh cipher event)
    (hstep : api.step cfg cipher event = some api') : api'.Inv cfg := by
  cases event with
  | request request =>
    obtain rfl := Option.some.inj hstep
    refine ⟨fun handler hmem => ?_, fun camera => ?_⟩
    · rcases List.mem_append.mp hmem with hold | hnew
      · exact h.ready handler hold
      · rw [List.mem_singleton.mp hnew]
        cases request <;> trivial
    · refine (h.settled camera).imp_right ?_
      rintro ⟨handler, hmem, howes⟩
      exact ⟨handler, List.mem_append_left _ hmem, howes⟩
  | step i env =>
    simp only [Api.step] at hstep
    split at hstep
    · cases hstep
    · cases hstep
    · next handler _ hhandler =>
      obtain rfl := Option.some.inj hstep
      have hmem := List.mem_of_getElem? hhandler
      have hready := h.ready handler hmem
      obtain ⟨hlt, hget⟩ := List.getElem?_eq_some_iff.mp hhandler
      refine ⟨fun other hother => ?_, fun camera => ?_⟩
      · rcases List.mem_or_eq_of_mem_set hother with hold | rfl
        · exact h.ready other hold
        · exact step_ready cipher env api.server hready
      · rcases step_settles hready (hfresh handler hhandler) camera with
          hagrees | howes | ⟨hkeeps, hidle, hothers⟩
        · exact .inl hagrees
        · exact .inr ⟨_, List.mem_set hlt _, howes⟩
        · rcases h.settled camera with hagrees | ⟨other, hother, howes⟩
          · exact .inl (hkeeps hagrees)
          · refine .inr ⟨other, ?_, hothers other howes⟩
            -- the one that owes is not the one that has moved
            obtain ⟨j, hj⟩ := List.mem_iff_getElem?.mp hother
            have hne : i ≠ j := by
              rintro rfl
              rw [hhandler] at hj
              exact hidle (Option.some.inj hj ▸ howes)
            refine List.mem_of_getElem? (i := j) ?_
            rw [List.getElem?_set_ne hne]
            exact hj

/-- In a run whose steps are all fresh, from a server that agrees, the workers agree
with the table in every state where all requests have completed. -/
theorem workers_agree {cfg : Config} {cipher : Cipher} {server : Server} {events : List ApiEvent}
    {api : Api} (hstart : ∀ camera, server.Agrees camera)
    (hfresh : Run.Along (Api.step cfg cipher) (Api.Fresh cipher) events { server })
    (hrun : Run.run (Api.step cfg cipher) events { server } = some api)
    (hdone : ∀ handler ∈ api.handlers, handler.isDone = true) :
    ∀ camera, api.server.Agrees camera := by
  have hinit : Api.Inv cfg { server } :=
    ⟨fun _ h => absurd h List.not_mem_nil, fun camera => .inl (hstart camera)⟩
  have hinv : api.Inv cfg :=
    Run.run_invariant_along hinit (fun _ _ _ hfresh h hstep => h.step hfresh hstep) hfresh hrun
  intro camera
  rcases hinv.settled camera with hagrees | ⟨handler, hmem, howes⟩
  · exact hagrees
  · have hanswered := hdone handler hmem
    cases handler with
    | done response => exact howes.elim
    | add | addStart | update | updateStop | updateStart | delete | deleteRow => cases hanswered

theorem agrees_empty (camera : CameraId) : ({} : Server).Agrees camera := agrees_iff.mpr rfl

/-- A camera is added, and then renamed and disabled. -/
def addAndDisable : List ApiEvent :=
  [.request (.post exampleCamera), .step 0 {}, .step 0 {},
    .request (.patch 1 { name := .value ⟨"Gate", by decide, by decide⟩, enabled := .value false }),
    .step 1 {}, .step 1 {}]

theorem workers_agree_disabled : ∃ api,
    Run.run (Api.step {} plainCipher) addAndDisable {} = some api ∧
      ∀ camera, api.server.Agrees camera := by
  have hdone : (Run.run (Api.step {} plainCipher) addAndDisable {}).map
      (·.handlers.all Handler.isDone) = some true := by decide +kernel
  obtain ⟨api, hrun, hdone⟩ := Option.map_eq_some_iff.mp hdone
  refine ⟨api, hrun, workers_agree agrees_empty ?_ hrun (List.all_eq_true.mp hdone)⟩
  decide +kernel

/-- A patch has committed when the camera is deleted, and then starts what it has read. -/
def staleStart : List ApiEvent :=
  [.request (.post exampleCamera), .step 0 {}, .step 0 {},
    .request (.patch 1 { name := .value ⟨"Gate", by decide, by decide⟩ }), .request (.delete 1),
    .step 1 {}, .step 2 {}, .step 2 {}, .step 1 {}, .step 1 {}]

/-- All requests have completed, the table is empty, and camera 1 has a worker. -/
theorem staleStart_disagrees : ∃ api, Run.run (Api.step {} plainCipher) staleStart {} = some api ∧
    api.handlers.all Handler.isDone = true ∧ api.server.db.rows = [] ∧
    (api.server.workers 1).isSome = true ∧ ¬ api.server.Agrees 1 := by
  have hview : (Run.run (Api.step {} plainCipher) staleStart {}).map (fun api =>
      (api.handlers.all Handler.isDone, api.server.db.rows.length,
        (api.server.workers 1).isSome)) = some (true, 0, true) := by decide +kernel
  obtain ⟨api, hrun, hview⟩ := Option.map_eq_some_iff.mp hview
  obtain ⟨hdone, hrest⟩ := Prod.mk.inj hview
  obtain ⟨hlength, hworker⟩ := Prod.mk.inj hrest
  have hrows := List.length_eq_zero_iff.mp hlength
  refine ⟨api, hrun, hdone, hrows, hworker, fun hagrees => ?_⟩
  obtain ⟨row, hrow, _⟩ := hagrees.worker_iff.mp hworker
  rw [hrows] at hrow
  exact List.not_mem_nil hrow

end DahuaBridge
