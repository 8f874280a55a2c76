import DahuaBridge.Api.Handlers

/-!
# How many cameras can be added

The database never allocates an id twice, and the manager has ports for the ids
up to `max_cameras` only. So the capacity that a deleted camera had is gone.

* `add_succeeds_iff`: after every sequence of requests, the next camera can be
  added exactly when its id, beyond all ids that were ever committed, has a port, and
  neither `cipher()` nor `Popen` fails.
* `serveAll_seq`: the largest id ever committed is that of the last row that was added,
  whatever has been deleted since.
-/

namespace DahuaBridge

/-! ## One request after the other -/

/-- A handler that runs alone takes at most three steps. -/
def serve (cfg : Config) (cipher : Cipher) (env : Env) (server : Server) (request : Request) :
    Server × Handler :=
  let (server, handler) := request.handler.step cfg cipher env server
  let (server, handler) := handler.step cfg cipher env server
  handler.step cfg cipher env server

def serveAll (cfg : Config) (cipher : Cipher) (server : Server) :
    List (Request × Env) → Server
  | [] => server
  | (request, env) :: requests =>
    serveAll cfg cipher (serve cfg cipher env server request).1 requests

/-! ## Ports -/

section Ports

variable {cfg : Config} {camera : CameraId} {port : Int} {row : Camera}

theorem portFor_eq_some : cfg.portFor camera = some port ↔
    (1 ≤ camera ∧ camera ≤ cfg.maxCameras) ∧ port = cfg.firstPort + camera - 1 := by
  unfold Config.portFor CameraId at *
  split
  · constructor
    · nofun
    · omega
  · rw [Option.some.injEq]
    omega

/-- Two cameras have two ports. -/
theorem portFor_inj {camera' : CameraId} (h : cfg.portFor camera = some port)
    (h' : cfg.portFor camera' = some port) : camera = camera' := by
  rw [portFor_eq_some] at h h'
  unfold CameraId at *
  omega

theorem portFor_isSome : (cfg.portFor camera).isSome ↔ 1 ≤ camera ∧ camera ≤ cfg.maxCameras := by
  rw [Option.isSome_iff_exists]
  simp only [portFor_eq_some, exists_and_left, exists_eq, and_true]

theorem publicCamera_eq_none {report : Status × Option String} (h : cfg.portFor row.id = none) :
    cfg.publicCamera row report = none := by
  rw [Config.publicCamera, Config.rtspUri, h]
  rfl

theorem publicCamera_eq_some (report : Status × Option String) (h : cfg.portFor row.id = some port) :
    ∃ item, cfg.publicCamera row report = some item ∧ item.id = row.id ∧
      cfg.rtspUri row.id row.channel 0 = some item.rtspMain := by
  rw [Config.publicCamera, Config.rtspUri, Config.rtspUri, Config.onvifPortFor, h]
  exact ⟨_, rfl, rfl, rfl⟩

end Ports

/-! ## What one request does to the table -/

section Serve

variable {cfg : Config} {cipher : Cipher} {env : Env} {server server' : Server} {handler : Handler}

/-- A handler that has answered stays as it is. -/
theorem serve_of_steps {request : Request} {server₁ server₂ server₃ : Server}
    {first second : Handler} {response : Response}
    (h₁ : request.handler.step cfg cipher env server = (server₁, first))
    (h₂ : first.step cfg cipher env server₁ = (server₂, second))
    (h₃ : second.step cfg cipher env server₂ = (server₃, .done response)) :
    serve cfg cipher env server request = (server₃, .done response) := by
  rw [serve, h₁]
  simp only [h₂, h₃]

theorem serve_of_done {request : Request} {response : Response}
    (h : request.handler.step cfg cipher env server = (server', .done response)) :
    serve cfg cipher env server request = (server', .done response) :=
  serve_of_steps h rfl rfl

/-- A request that is answered at once. -/
theorem addRow_of_used {camera : CameraInput}
    (hused : camera.serial.val ∈ server.db.rows.map Camera.serial) :
    Handler.addRow cfg cipher env server camera =
      (server, .done (.error 409 "A camera with this serial already exists")) := by
  rw [Handler.addRow, server.db.insert_eq_none env.gap _ hused]

/-- A new camera whose id has no port is rolled back. -/
theorem addRow_of_no_port {camera : CameraInput}
    (hserial : camera.serial.val ∉ server.db.rows.map Camera.serial)
    (hport : cfg.portFor (server.db.seq + 1 + env.gap) = none) :
    Handler.addRow cfg cipher env server camera = (server, .done .internal) := by
  obtain ⟨db, hinsert, _⟩ := server.db.insert_eq_some env.gap
    (cipher.encrypt env.nonce camera.password) hserial
  rw [Handler.addRow, hinsert]
  simp only
  rw [publicCamera_eq_none hport]

/-- A new camera whose id has a port is stored, and started if it should have a worker. -/
theorem addRow_of_port {camera : CameraInput} {row : Camera} {port : Int}
    (hserial : camera.serial.val ∉ server.db.rows.map Camera.serial)
    (hport : cfg.portFor (server.db.seq + 1 + env.gap) = some port)
    (hrow : row = Database.newRow (server.db.seq + 1 + env.gap) camera
      (cipher.encrypt env.nonce camera.password)) :
    ∃ db item, db.rows = server.db.rows ++ [row] ∧ db.seq = row.id ∧ item.id = row.id ∧
      cfg.rtspUri row.id row.channel 0 = some item.rtspMain ∧
      Handler.addRow cfg cipher env server camera = ({ server with db },
        if row.wantsWorker then .addStart row camera.password item
        else .done (.item 201 item)) := by
  subst hrow
  obtain ⟨db, hinsert, hrows, hseq⟩ := server.db.insert_eq_some env.gap
    (cipher.encrypt env.nonce camera.password) hserial
  have hrow : cfg.portFor (Database.newRow (server.db.seq + 1 + env.gap) camera
      (cipher.encrypt env.nonce camera.password)).id = some port := hport
  obtain ⟨item, hitem, hid, huri⟩ :=
    publicCamera_eq_some (server.report env (server.db.seq + 1 + env.gap)) hrow
  refine ⟨db, item, hrows, hseq, hid, huri, ?_⟩
  rw [Handler.addRow, hinsert]
  simp only
  rw [show (Database.newRow (server.db.seq + 1 + env.gap) camera
    (cipher.encrypt env.nonce camera.password)).id = server.db.seq + 1 + env.gap from rfl, hitem]
  rfl

/-- For a row that should have a worker and has a port, `start` fails in `Popen` only. -/
theorem finishStart_eq {faults : Faults} {row : Camera} {password : String} {response : Response}
    {port : Int} (hwants : row.wantsWorker = true) (hport : cfg.portFor row.id = some port) :
    Handler.finishStart cfg faults server row password response =
      ({ server with workers := (server.workers.enter cfg row password).1 },
        .done (if faults.popen && row.launchable password then response else .internal)) := by
  rw [Camera.wantsWorker, Bool.and_eq_true] at hwants
  have hentered := (server.workers.enter_eq password hwants.2 hport).1
  simp only [Handler.finishStart, Workers.start, hentered, Bool.true_and]

/-- After its commit a request for a camera that should have a worker is answered with 201
exactly if `Popen` starts its process. -/
theorem serve_post {camera : CameraInput} {row : Camera} {port : Int}
    (hsecret : env.faults.secret = true)
    (hserial : camera.serial.val ∉ server.db.rows.map Camera.serial)
    (hport : cfg.portFor (server.db.seq + 1 + env.gap) = some port)
    (hrow : row = Database.newRow (server.db.seq + 1 + env.gap) camera
      (cipher.encrypt env.nonce camera.password)) :
    ∃ db item workers, db.rows = server.db.rows ++ [row] ∧ db.seq = row.id ∧ item.id = row.id ∧
      cfg.rtspUri row.id row.channel 0 = some item.rtspMain ∧
      serve cfg cipher env server (.post camera) = ({ db, workers },
        .done (if row.wantsWorker && !(env.faults.popen && row.launchable camera.password)
          then .internal else .item 201 item)) := by
  obtain ⟨db, item, hrows, hseq, hid, huri, hadd⟩ := addRow_of_port hserial hport hrow
  have hstep : (Request.post camera).handler.step cfg cipher env server =
      Handler.addRow cfg cipher env server camera := if_pos hsecret
  rw [hadd] at hstep
  cases hwants : row.wantsWorker with
  | false =>
    rw [hwants] at hstep
    exact ⟨db, item, server.workers, hrows, hseq, hid, huri, serve_of_done hstep⟩
  | true =>
    rw [hwants] at hstep
    have hrow_port : cfg.portFor row.id = some port := by
      rw [hrow]
      exact hport
    refine ⟨db, item, (server.workers.enter cfg row camera.password).1, hrows, hseq, hid, huri, ?_⟩
    rw [serve_of_steps hstep (finishStart_eq hwants hrow_port) rfl]
    cases env.faults.popen && row.launchable camera.password <;> rfl

/-! ## Which ids were committed -/

/-- The id of the row that a request has added to the table. -/
def addedId (server server' : Server) : Option CameraId :=
  (server'.db.rows.find? fun row => server.db.seq < row.id).map Camera.id

def addedIds (cfg : Config) (cipher : Cipher) (server : Server) :
    List (Request × Env) → List CameraId
  | [] => []
  | (request, env) :: requests =>
    (addedId server (serve cfg cipher env server request).1).toList ++
      addedIds cfg cipher (serve cfg cipher env server request).1 requests

/-- The handler is about to insert a row. -/
def Handler.Inserts : Handler → Prop
  | .add _ => True
  | _ => False

/-- Where the counter has not moved no row was added. -/
theorem addedId_eq_none (h : server'.db.seq = server.db.seq) : addedId server server' = none := by
  rw [addedId, Option.map_eq_none_iff, List.find?_eq_none]
  intro row hrow hnew
  have hle := (server'.db.ids row hrow).2
  rw [h] at hle
  exact Int.not_lt.mpr hle (of_decide_eq_true hnew)

/-- The other handlers leave the counter alone. -/
theorem step_seq (cfg : Config) (cipher : Cipher) (env : Env) (server : Server)
    (h : ¬handler.Inserts) : ¬(handler.step cfg cipher env server).2.Inserts ∧
      (handler.step cfg cipher env server).1.db.seq = server.db.seq := by
  cases handler with
  | add camera => exact absurd trivial h
  | update camera patch =>
    simp only [Handler.step, Handler.updateRow]
    split
    · split
      · exact ⟨id, rfl⟩
      split
      · exact ⟨id, rfl⟩
      split
      · exact ⟨id, rfl⟩
      · exact ⟨id, rfl⟩
      · next db row hupdate =>
        split
        · exact ⟨id, rfl⟩
        · exact ⟨id, Database.seq_update hupdate⟩
    · exact ⟨id, rfl⟩
  | updateStop row result =>
    refine ⟨?_, rfl⟩
    simp only [Handler.step]
    split
    · split
      · split <;> exact id
      · exact id
    · exact id
  | deleteRow camera =>
    simp only [Handler.step]
    split <;> exact ⟨id, rfl⟩
  | addStart | updateStart | delete | done => exact ⟨id, rfl⟩

theorem serve_seq (request : Request) : (serve cfg cipher env server request).1.db.seq =
    (addedId server (serve cfg cipher env server request).1).getD server.db.seq := by
  have hsame (h : (serve cfg cipher env server request).1.db.seq = server.db.seq) :
      (serve cfg cipher env server request).1.db.seq =
        (addedId server (serve cfg cipher env server request).1).getD server.db.seq := by
    rw [addedId_eq_none h]
    exact h
  have hother (h : ¬request.handler.Inserts) :
      (serve cfg cipher env server request).1.db.seq = server.db.seq := by
    obtain ⟨h₁, hseq₁⟩ := step_seq cfg cipher env server h
    obtain ⟨h₂, hseq₂⟩ := step_seq cfg cipher env _ h₁
    exact (step_seq cfg cipher env _ h₂).2.trans (hseq₂.trans hseq₁)
  cases request with
  | post camera =>
    have hrefused {response : Response}
        (h : (Request.post camera).handler.step cfg cipher env server =
          (server, .done response)) := hsame (congrArg (·.1.db.seq) (serve_of_done h))
    cases hsecret : env.faults.secret with
    | false => exact hrefused (if_neg (by rw [hsecret]; exact Bool.false_ne_true))
    | true =>
      have hstep : (Request.post camera).handler.step cfg cipher env server =
        Handler.addRow cfg cipher env server camera := if_pos hsecret
      by_cases hserial : camera.serial.val ∈ server.db.rows.map Camera.serial
      · exact hrefused (hstep.trans (addRow_of_used hserial))
      · cases hport : cfg.portFor (server.db.seq + 1 + env.gap) with
        | none => exact hrefused (hstep.trans (addRow_of_no_port hserial hport))
        | some port =>
          obtain ⟨db, item, workers, hrows, hseq, _, _, hserve⟩ :=
            @serve_post cfg cipher env server _ _ _ hsecret hserial hport rfl
          rw [hserve]
          have hnew : server.db.seq < db.seq := hseq ▸ server.db.seq_lt_next env.gap
          have hold : server.db.rows.find? (fun row => decide (server.db.seq < row.id)) = none := by
            rw [List.find?_eq_none]
            intro row hrow hlt
            exact Int.not_lt.mpr (server.db.ids row hrow).2 (of_decide_eq_true hlt)
          rw [hseq] at hnew ⊢
          rw [addedId, hrows, List.find?_append, hold, Option.none_or, List.find?_singleton,
            if_pos (decide_eq_true hnew)]
          rfl
  | patch camera patch => exact hsame (hother id)
  | delete camera => exact hsame (hother id)

/-- The counter is the last id that was committed, whatever has been deleted since. -/
theorem serveAll_seq (requests : List (Request × Env)) :
    (serveAll cfg cipher server requests).db.seq =
      (addedIds cfg cipher server requests).getLast?.getD server.db.seq := by
  induction requests generalizing server with
  | nil => rfl
  | cons head requests ih =>
    obtain ⟨request, env⟩ := head
    rw [serveAll, ih, serve_seq, addedIds, List.getLast?_append]
    cases addedId server (serve cfg cipher env server request).1 with
    | none => simp
    | some id =>
      cases (addedIds cfg cipher (serve cfg cipher env server request).1 requests).getLast? <;> rfl

/-! ## Capacity -/

/-- The camera was added: it is stored, the answer names it, and it has an RTSP port
between 15540 and 15569 that no other stored camera has. -/
def Added (cfg : Config) (server : Server) (camera : CameraInput) (handler : Handler) : Prop :=
  ∃ row item port, row ∈ server.db.rows ∧ row.serial = camera.serial.val ∧
    handler = .done (.item 201 item) ∧ item.id = row.id ∧
    cfg.rtspUri row.id row.channel 0 = some item.rtspMain ∧ cfg.portFor row.id = some port ∧
    (15540 ≤ port ∧ port ≤ 15569) ∧
    ∀ row' ∈ server.db.rows, row' ≠ row → cfg.portFor row'.id ≠ some port

/-- `add_camera` starts no process, or one that nothing in the request keeps from starting. -/
def CameraInput.Starts (camera : CameraInput) (faults : Faults) : Prop :=
  (camera.enabled && camera.vendor.hasP2P) = true → faults.popen = true ∧
    ∀ text ∈ [camera.serial.val, camera.username.val, camera.password.val],
      ∀ c ∈ text.toList, c.toNat ≠ 0

theorem starts_iff {camera : CameraInput} {faults : Faults} {id : CameraId} {passwordEnc : String} :
    camera.Starts faults ↔ ((Database.newRow id camera passwordEnc).wantsWorker &&
      !(faults.popen && (Database.newRow id camera passwordEnc).launchable camera.password)) =
        false := by
  have hwants : (Database.newRow id camera passwordEnc).wantsWorker =
      (camera.enabled && camera.vendor.hasP2P) := rfl
  have hlaunch : (Database.newRow id camera passwordEnc).launchable camera.password = true ↔
      ∀ text ∈ [camera.serial.val, camera.username.val, camera.password.val],
        ∀ c ∈ text.toList, c.toNat ≠ 0 := by
    simp only [Camera.launchable, List.all_eq_true, decide_eq_true_eq]
    rfl
  rw [CameraInput.Starts, ← hlaunch, hwants]
  cases (camera.enabled && camera.vendor.hasP2P) <;> cases faults.popen <;>
    cases (Database.newRow id camera passwordEnc).launchable camera.password <;> decide

/-- A camera with an unused serial can be added exactly when its id, beyond all that were ever
committed, is at most 30, and neither `cipher()` nor `Popen` fails. -/
theorem added_iff (cipher : Cipher) (server : Server) (camera : CameraInput) (env : Env)
    (hserial : ∀ row ∈ server.db.rows, row.serial ≠ camera.serial.val) :
    Added {} (serve {} cipher env server (.post camera)).1 camera
        (serve {} cipher env server (.post camera)).2 ↔
      server.db.seq + 1 + env.gap ≤ 30 ∧ env.faults.secret = true ∧ camera.Starts env.faults := by
  have hunused : camera.serial.val ∉ server.db.rows.map Camera.serial := by
    intro hmem
    obtain ⟨row, hrow, heq⟩ := List.mem_map.mp hmem
    exact hserial row hrow heq
  have hrefused {status : Nat} {detail : String}
      (h : (Request.post camera).handler.step {} cipher env server =
        (server, .done (.error status detail))) :
      ¬Added {} (serve {} cipher env server (.post camera)).1 camera
        (serve {} cipher env server (.post camera)).2 := by
    rw [serve_of_done h]
    rintro ⟨_, _, _, _, _, hdone, _⟩
    cases hdone
  cases hsecret : env.faults.secret with
  | false =>
    refine iff_of_false (hrefused (if_neg ?_)) fun h => Bool.false_ne_true h.2.1
    rw [hsecret]
    exact Bool.false_ne_true
  | true =>
    have hstep : (Request.post camera).handler.step {} cipher env server =
        Handler.addRow {} cipher env server camera := if_pos hsecret
    have hpos := server.db.next_pos env.gap
    cases hport : Config.portFor {} (server.db.seq + 1 + env.gap) with
    | none =>
      refine iff_of_false (hrefused (hstep.trans (addRow_of_no_port hunused hport))) fun h => ?_
      have hsome : (Config.portFor {} (server.db.seq + 1 + env.gap)).isSome :=
        portFor_isSome.mpr ⟨hpos, h.1⟩
      rw [hport] at hsome
      cases hsome
    | some port =>
      have hle : server.db.seq + 1 + env.gap ≤ 30 :=
        ((@portFor_isSome {} _).mp (by rw [hport]; rfl)).2
      generalize hrow : Database.newRow (server.db.seq + 1 + env.gap) camera
        (cipher.encrypt env.nonce camera.password) = row
      obtain ⟨db, item, workers, hrows, _, hitem, huri, hserve⟩ :=
        serve_post hsecret hunused hport hrow.symm
      rw [hserve, @starts_iff camera env.faults (server.db.seq + 1 + env.gap)
        (cipher.encrypt env.nonce camera.password), hrow]
      constructor
      · rintro ⟨_, _, _, _, _, hdone, _⟩
        refine ⟨hle, rfl, ?_⟩
        split at hdone
        · cases hdone
        · next hstarts => exact Bool.not_eq_true _ ▸ hstarts
      · rintro ⟨_, _, hstarts⟩
        have hrow_port : Config.portFor {} row.id = some port := hrow ▸ hport
        refine ⟨row, item, port, ?_, hrow ▸ rfl, by rw [hstarts]; rfl, hitem, huri, hrow_port,
          ?_, ?_⟩
        · rw [hrows]
          exact List.mem_append_right _ (List.mem_singleton_self row)
        · obtain ⟨_, rfl⟩ := portFor_eq_some.mp hport
          show 15540 ≤ (15540 : Int) + (server.db.seq + 1 + env.gap) - 1 ∧
            (15540 : Int) + (server.db.seq + 1 + env.gap) - 1 ≤ 15569
          omega
        · intro row' hrow' hne hsame
          refine hne (Database.eq_of_mem hrow' ?_ (portFor_inj hsame hrow_port))
          rw [hrows]
          exact List.mem_append_right _ (List.mem_singleton_self row)

/-- After every sequence of requests, fewer than 30 stored cameras mean that a camera with an
unused serial can be added, exactly when 30 are stored or nothing of the above fails. -/
theorem add_succeeds_iff (cipher : Cipher) (requests : List (Request × Env)) (camera : CameraInput)
    (env : Env) (hserial : ∀ row ∈ (serveAll {} cipher {} requests).db.rows,
      row.serial ≠ camera.serial.val) :
    ((serveAll {} cipher {} requests).db.rows.length < 30 →
      Added {} (serve {} cipher env (serveAll {} cipher {} requests) (.post camera)).1 camera
        (serve {} cipher env (serveAll {} cipher {} requests) (.post camera)).2) ↔
      30 ≤ (serveAll {} cipher {} requests).db.rows.length ∨
        (serveAll {} cipher {} requests).db.seq + 1 + env.gap ≤ 30 ∧ env.faults.secret = true ∧
          camera.Starts env.faults := by
  rw [added_iff cipher _ camera env hserial, imp_iff_or_not, Nat.not_lt, or_comm]

/-- One camera is added and deleted again, `n` times. -/
def addAndDelete (n : Nat) : List (Request × Env) :=
  (List.range n).flatMap fun (i : Nat) => [(.post exampleCamera, {}), (.delete (i + 1), {})]

theorem addAndDelete_db : (serveAll {} plainCipher {} (addAndDelete 1)).db.rows.length = 0 ∧
    (serveAll {} plainCipher {} (addAndDelete 1)).db.seq = 1 := by decide +kernel

theorem add_succeeds_iff_second :
    Added {} (serve {} plainCipher {} (serveAll {} plainCipher {} (addAndDelete 1))
        (.post exampleCamera)).1 exampleCamera
      (serve {} plainCipher {} (serveAll {} plainCipher {} (addAndDelete 1))
        (.post exampleCamera)).2 := by
  obtain ⟨hrows, hseq⟩ := addAndDelete_db
  have hstarts : exampleCamera.Starts {} := (@starts_iff _ _ 2 "secret").mpr (by decide +kernel)
  refine (add_succeeds_iff plainCipher (addAndDelete 1) exampleCamera {} ?_).mpr
    (.inr ⟨?_, rfl, hstarts⟩) ?_
  · rw [List.length_eq_zero_iff.mp hrows]
    exact fun _ h => absurd h List.not_mem_nil
  · rw [hseq]
    decide
  · rw [hrows]
    decide

/-- After thirty additions and deletions no camera is stored, and none can be added. -/
theorem addAndDelete_full : (serveAll {} plainCipher {} (addAndDelete 30)).db.rows = [] ∧
    ¬ Added {} (serve {} plainCipher {} (serveAll {} plainCipher {} (addAndDelete 30))
        (.post exampleCamera)).1 exampleCamera
      (serve {} plainCipher {} (serveAll {} plainCipher {} (addAndDelete 30))
        (.post exampleCamera)).2 := by
  have hdb : (serveAll {} plainCipher {} (addAndDelete 30)).db.rows.length = 0 ∧
      (serveAll {} plainCipher {} (addAndDelete 30)).db.seq = 30 := by decide +kernel
  have hrows := List.length_eq_zero_iff.mp hdb.1
  refine ⟨hrows, fun hadded => ?_⟩
  rw [added_iff, hdb.2] at hadded
  · exact absurd hadded.1 (by decide)
  · rw [hrows]
    exact fun _ h => absurd h List.not_mem_nil

end Serve

end DahuaBridge
