/-
**What a Midjourney task is charged.**

A task is submitted to the upstream, then it is stored and charged.  Whether it is charged is
decided by a flag that some actions and some answers take back, and by the HTTP status of the
answer; the charge is made when the function returns, also by an error or by a panic.  The quota
that is stored with the task, and is given back if it fails, is the price in any case.

Main definitions:

* `NewApi.relayMidjourneySubmit`, `NewApi.relaySwapFace` — the two functions that store tasks;
* `NewApi.RecordsCharge` — the task records what has been taken for it;
* `NewApi.MjCall.Agrees` — the condition;
* `NewApi.mjSystemStep` — calls and pollers, in any order.

Main results:

* `NewApi.records_charge_iff` — a call records its charge exactly under the condition;
* `NewApi.midjourney_charge_recorded` — **and where all calls do, and no task is refunded twice, the
  refunds never exceed the charges**;
* `NewApi.refused_task_refunded` — a task that has not been charged is refunded.
-/

import NewApi.Midjourney
import NewApi.SsrfProtection
import NewApi.TextLedgers

set_option autoImplicit false

namespace NewApi

/-! ### Requests -/

inductive MjRelayMode where
  | imagine
  | describe
  | blend
  | change
  | simpleChange
  | action
  | modal
  | shorten
  | upload
  | video
  | edits
  | other
deriving DecidableEq, Repr

/-- What is read of a request. -/
structure MidjourneyRequest where
  prompt : String := ""
  customId : String := ""
  action : String := ""
  index : ℤ := 0
  taskId : String := ""
  content : String := ""
deriving DecidableEq, Repr

/-- A function returns early, or panics. -/
inductive MjStop where
  | response (code : ℤ) (description : String)
  | panicked
deriving DecidableEq, Repr

def mjRequestError : ℤ := 4

/-- The error of a request that is refused. -/
def midjourneyErrorWrapper (description : String) : MjStop := .response mjRequestError description

/-- The parts of a text between double colons. -/
def splitColons : List Char → List (List Char)
  | [] => [[]]
  | ':' :: ':' :: cs => [] :: splitColons cs
  | c :: cs =>
    match splitColons cs with
    | [] => [[c]]
    | part :: parts => (c :: part) :: parts

/-- The action of a custom id. -/
def coverPlusActionToNormalAction (req : MidjourneyRequest) : Except MjStop MidjourneyRequest :=
  if req.customId = "" then .error (midjourneyErrorWrapper "custom_id_is_required")
  else
    let splits := splitColons req.customId.toList
    match splits[1]? with
    | none => .error .panicked
    | some second =>
      match if second = "JOB".toList then splits[2]? else some second with
      | none => .error .panicked
      | some letters =>
        let action := String.ofList letters
        let withIndex (name : String) : Except MjStop MidjourneyRequest :=
          match splits[3]? with
          | none => .error .panicked
          | some number =>
            match strconvAtoi number with
            | none => .error (midjourneyErrorWrapper "index_parse_failed")
            | some index => .ok { req with index := index, action := name }
        if action = "" then .error (midjourneyErrorWrapper "unknown_action")
        else if contains action "upsample" then withIndex "UPSCALE"
        else if contains action "variation" then
          if action = "variation" then withIndex "VARIATION"
          else if action = "low_variation" then
            .ok { req with index := 1, action := "LOW_VARIATION" }
          else if action = "high_variation" then
            .ok { req with index := 1, action := "HIGH_VARIATION" }
          else .ok { req with index := 1 }
        else if contains action "pan" then .ok { req with action := "PAN", index := 1 }
        else if contains action "reroll" then .ok { req with action := "REROLL", index := 1 }
        else if action = "Outpaint" then .ok { req with action := "ZOOM", index := 1 }
        else if action = "CustomZoom" then .ok { req with action := "CUSTOM_ZOOM", index := 1 }
        else if action = "Inpaint" then .ok { req with action := "INPAINT", index := 1 }
        else .error (midjourneyErrorWrapper ("unknown_action:" ++ req.customId))

/-- The task and the action of a text such as "id u1". -/
def convertSimpleChangeParams (content : String) : Except MjStop MidjourneyRequest :=
  let failed : Except MjStop MidjourneyRequest :=
    .error (midjourneyErrorWrapper "content_parse_failed")
  match split content ' ' with
  | [taskId, letters] =>
    let numbered (name : String) (rest : List Char) : Except MjStop MidjourneyRequest :=
      match rest with
      | [] => .error .panicked
      | digit :: _ =>
        match strconvAtoi [digit] with
        | none => failed
        | some index =>
          if index < 1 ∨ 4 < index then failed
          else .ok { taskId := taskId, action := name, index := index }
    match letters.toList.map Char.toLower with
    | [] => .error .panicked
    | 'u' :: rest => numbered "UPSCALE" rest
    | 'v' :: rest => numbered "VARIATION" rest
    | ['r'] => .ok { taskId := taskId, action := "REROLL" }
    | _ => failed
  | _ => failed

/-! ### What a call is given -/

/-- The properties of an answer, as far as they are texts. -/
structure MjProperties where
  imageUrl : Option String
  status : Option String
deriving DecidableEq, Repr

/-- The answer of the upstream.  The properties may not be an object. -/
structure MidjourneyResponse where
  code : ℤ
  description : String := ""
  properties : Option MjProperties := none
  result : String := ""
deriving DecidableEq, Repr

/-- What a call is given: the settings, the look-ups, the answer of the upstream, and the outcome of
the statements.  `quota` is the price; `originChannel` says whether a channel is enabled, and
`autoBan` whether it may be disabled, if it is found. -/
structure MjEnv where
  now : ℤ
  channelId : ℤ
  actionCheckSuccess : Bool := true
  originChannel : ℤ → Option Bool := fun _ => some true
  quota : Except String ℤ
  userQuota : Except String ℤ
  http : Except (ℤ × String) (ℤ × MidjourneyResponse)
  autoBan : ℤ → Option Bool := fun _ => some false
  charge : BillingSession.SettleFaults := {}
  insert : Bool := true
  copied : Bool := true

/-- What a call leaves: the early return, if there is one, the world, and the task that has been
stored. -/
structure MjOutcome where
  stop : Option MjStop
  world : World
  task : Option Midjourney

/-! ### Submitting a task -/

/-- The task a request refers to, and its new action. -/
def originOf (relayMode : MjRelayMode) (req : MidjourneyRequest) :
    Except MjStop (String × MidjourneyRequest) :=
  match relayMode with
  | .change =>
    if req.taskId = "" then .error (midjourneyErrorWrapper "task_id_is_required")
    else if req.action = "" then .error (midjourneyErrorWrapper "action_is_required")
    else if req.index = 0 then .error (midjourneyErrorWrapper "index_is_required")
    else .ok (req.taskId, req)
  | .simpleChange =>
    if req.content = "" then .error (midjourneyErrorWrapper "content_is_required")
    else
      (convertSimpleChangeParams req.content).map fun params =>
        (params.taskId, { req with action := params.action })
  | .modal => .ok (req.taskId, { req with action := "MODAL" })
  | .video =>
    if req.taskId = "" then .error (midjourneyErrorWrapper "task_id_is_required")
    else .ok (req.taskId, { req with action := "VIDEO" })
  | _ => .ok ("", req)

/-- The channel of the task a request refers to, which the request is sent to. -/
def originChannelOf (env : MjEnv) (relayMode : MjRelayMode) (userId : ℤ) (mjId : String)
    (rows : List Midjourney) : Except MjStop ℤ :=
  match rows.find? fun row => row.userId = userId ∧ row.mjId = mjId with
  | none => .error (midjourneyErrorWrapper "task_not_found")
  | some originTask =>
    if env.actionCheckSuccess = true ∧ originTask.status ≠ "SUCCESS" ∧ relayMode ≠ .modal then
      .error (midjourneyErrorWrapper "task_status_not_success")
    else
      match env.originChannel originTask.channelId with
      | none => .error (midjourneyErrorWrapper "get_channel_info_failed")
      | some false => .error (midjourneyErrorWrapper "该任务所属渠道已被禁用")
      | some true => .ok originTask.channelId

/-- The request as it is sent on, and the channel. -/
def prepareMjRequest (env : MjEnv) (relayMode : MjRelayMode) (userId : ℤ)
    (request : Option MidjourneyRequest) (rows : List Midjourney) :
    Except MjStop (MidjourneyRequest × ℤ) :=
  match request with
  | none => .error (midjourneyErrorWrapper "bind_request_body_failed")
  | some req =>
    match if relayMode = .action then coverPlusActionToNormalAction req else .ok req with
    | .error stop => .error stop
    | .ok req =>
      let relayMode := if relayMode = .action then .change else relayMode
      let req := if relayMode = .video then { req with action := "VIDEO" } else req
      match relayMode with
      | .imagine =>
        if req.prompt = "" then .error (midjourneyErrorWrapper "prompt_is_required")
        else .ok ({ req with action := "IMAGINE" }, env.channelId)
      | .describe => .ok ({ req with action := "DESCRIBE" }, env.channelId)
      | .edits => .ok ({ req with action := "EDITS" }, env.channelId)
      | .shorten => .ok ({ req with action := "SHORTEN" }, env.channelId)
      | .blend => .ok ({ req with action := "BLEND" }, env.channelId)
      | .upload => .ok ({ req with action := "UPLOAD" }, env.channelId)
      | relayMode =>
        if req.taskId = "" then .ok (req, env.channelId)
        else
          match originOf relayMode req with
          | .error stop => .error stop
          | .ok (mjId, req) =>
            (originChannelOf env relayMode userId mjId rows).map fun channelId =>
              (req, channelId)

/-- Two actions are for free. -/
def consumesQuota (action : String) : Bool := action ≠ "INPAINT" && action ≠ "CUSTOM_ZOOM"

/-- The charge when a function returns.  An error is logged. -/
def chargeMjTask (cfg : BillingConfig) (env : MjEnv) (relayInfo : RelayInfo) (quota : ℤ)
    (w : World) : World :=
  (postConsumeQuota cfg env.charge relayInfo quota w).2

/-- The codes of an answer that a task has been submitted, is there already, or is queued. -/
def mjSubmitted (code : ℤ) : Bool := code = 1 || code = 21 || code = 22

/-- The task to be stored. -/
def newMjTask (env : MjEnv) (userId channelId quota id : ℤ) (response : MidjourneyResponse) :
    Midjourney where
  id := id
  code := response.code
  userId := userId
  mjId := response.result
  submitTime := env.now
  status := ""
  progress := "0%"
  channelId := channelId
  quota := quota

/-- What the answer makes of the task: a reason for a failure, or the result of a task that is
there already. -/
def receiveMjAnswer (env : MjEnv) (action : String) (response : MidjourneyResponse)
    (task : Midjourney) : Midjourney :=
  let task :=
    if mjSubmitted response.code then task else { task with failReason := response.description }
  let known : Option (String × String) :=
    if response.code ≠ 21 then none
    else response.properties.bind fun properties =>
      properties.imageUrl.bind fun imageUrl =>
        properties.status.map fun status => (imageUrl, status)
  let done := (known.map (·.2)) = some "SUCCESS"
  let task :=
    match known with
    | none => task
    | some (imageUrl, status) => { task with imageUrl := imageUrl, status := status }
  let task :=
    if done then { task with progress := "100%", startTime := env.now, finishTime := env.now }
    else task
  if (response.code = 1 ∨ done) ∧ action = "UPLOAD" then
    { task with progress := "100%", status := "SUCCESS" }
  else task

/-- The price, the look-up of the user's quota and the answer of the upstream. -/
def askMidjourney (env : MjEnv) (consumeQuota : Bool) :
    Except MjStop (ℤ × ℤ × MidjourneyResponse) :=
  match env.quota, env.userQuota with
  | .error e, _ => .error (.response 4 e)
  | _, .error e => .error (.response 4 e)
  | .ok quota, .ok userQuota =>
    if consumeQuota = true ∧ userQuota - quota < 0 then .error (.response 4 "quota_not_enough")
    else
      match env.http with
      | .error (code, description) => .error (.response code description)
      | .ok (statusCode, response) => .ok (quota, statusCode, response)

/-- Submit a task to the upstream, store it and charge it. -/
def relayMidjourneySubmit (cfg : BillingConfig) (env : MjEnv) (relayMode : MjRelayMode)
    (request : Option MidjourneyRequest) (relayInfo : RelayInfo) (rows : List Midjourney) (id : ℤ)
    (w : World) : MjOutcome :=
  match prepareMjRequest env relayMode relayInfo.userId request rows with
  | .error stop => ⟨some stop, w, none⟩
  | .ok (req, channelId) =>
    match askMidjourney env (consumesQuota req.action) with
    | .error stop => ⟨some stop, w, none⟩
    | .ok (quota, statusCode, response) =>
      let charged (consumeQuota : Bool) : World :=
        if consumeQuota = true ∧ statusCode = 200 then chargeMjTask cfg env relayInfo quota w
        else w
      if response.code = 3 ∧ env.autoBan channelId = none then
        -- the channel is not there: the charge is made before the answer has been looked at
        ⟨some .panicked, charged (consumesQuota req.action), none⟩
      else
        let consumeQuota := consumesQuota req.action && mjSubmitted response.code
        let task := receiveMjAnswer env req.action response
          (newMjTask env relayInfo.userId channelId quota id response)
        if env.insert = false then
          ⟨some (.response 4 "insert_midjourney_task_failed"), charged consumeQuota, none⟩
        else
          ⟨if env.copied then none else some (.response 4 "copy_response_body_failed"),
            charged consumeQuota, some task⟩

/-- Submit a swap of faces.  The request has two images. -/
def relaySwapFace (cfg : BillingConfig) (env : MjEnv) (request : Option (String × String))
    (relayInfo : RelayInfo) (id : ℤ) (w : World) : MjOutcome :=
  match request with
  | none => ⟨some (midjourneyErrorWrapper "bind_request_body_failed"), w, none⟩
  | some (sourceBase64, targetBase64) =>
    if sourceBase64 = "" ∨ targetBase64 = "" then
      ⟨some (midjourneyErrorWrapper "sour_base64_and_target_base64_is_required"), w, none⟩
    else
      match askMidjourney env true with
      | .error stop => ⟨some stop, w, none⟩
      | .ok (quota, statusCode, response) =>
        let charged :=
          if statusCode = 200 ∧ response.code = 1 then chargeMjTask cfg env relayInfo quota w
          else w
        let task :=
          { newMjTask env relayInfo.userId env.channelId quota id response with
            startTime := env.now }
        if env.insert = false then
          ⟨some (midjourneyErrorWrapper "insert_midjourney_task_failed"), charged, none⟩
        else
          ⟨if env.copied then none
            else some (midjourneyErrorWrapper "copy_response_body_failed"), charged, some task⟩

/-! ### What a call records -/

inductive MjCall where
  | submit (relayMode : MjRelayMode) (request : Option MidjourneyRequest)
  | swapFace (request : Option (String × String))

namespace MjCall

/-- A call. -/
def run (cfg : BillingConfig) (env : MjEnv) (relayInfo : RelayInfo) (rows : List Midjourney)
    (id : ℤ) (w : World) : MjCall → MjOutcome
  | .submit relayMode request => relayMidjourneySubmit cfg env relayMode request relayInfo rows id w
  | .swapFace request => relaySwapFace cfg env request relayInfo id w

/-- The price of a call, if it gets an answer from the upstream; whether it is charged, and whether
its task is stored. -/
def answered (env : MjEnv) (relayInfo : RelayInfo) (rows : List Midjourney) :
    MjCall → Option (ℤ × Bool × Bool)
  | .submit relayMode request =>
    match prepareMjRequest env relayMode relayInfo.userId request rows with
    | .error _ => none
    | .ok (req, channelId) =>
      match askMidjourney env (consumesQuota req.action) with
      | .error _ => none
      | .ok (quota, statusCode, response) =>
        let panics := decide (response.code = 3 ∧ env.autoBan channelId = none)
        some (quota, consumesQuota req.action && decide (statusCode = 200) &&
          (panics || mjSubmitted response.code), env.insert && !panics)
  | .swapFace request =>
    match request with
    | none => none
    | some (sourceBase64, targetBase64) =>
      if sourceBase64 = "" ∨ targetBase64 = "" then none
      else
        match askMidjourney env true with
        | .error _ => none
        | .ok (quota, statusCode, response) =>
          some (quota, decide (statusCode = 200) && decide (response.code = 1), env.insert)

/-- **The condition**: a call that gets an answer is for nothing, or it is charged, and the charge
goes through, just when its task is stored. -/
def Agrees (cfg : BillingConfig) (env : MjEnv) (relayInfo : RelayInfo) (rows : List Midjourney)
    (call : MjCall) : Prop :=
  match call.answered env relayInfo rows with
  | none => True
  | some (quota, charged, stored) =>
    quota = 0 ∨ (charged = true ∧ cfg.Reliable env.charge.funding.user ↔ stored = true)

instance instDecidableAgrees (cfg : BillingConfig) (env : MjEnv) (relayInfo : RelayInfo)
    (rows : List Midjourney) (call : MjCall) : Decidable (call.Agrees cfg env relayInfo rows) := by
  unfold Agrees
  cases call.answered env relayInfo rows with
  | none => exact .isTrue trivial
  | some answer => exact inferInstanceAs (Decidable (_ ∨ _))

end MjCall

/-- What a call has taken from a user. -/
def MjOutcome.taken (userId : ℤ) (w : World) (out : MjOutcome) : ℤ :=
  w.userQuota userId - out.world.userQuota userId

/-- **The task records what has been taken for it**, and nothing has been taken if there is none. -/
def RecordsCharge (userId : ℤ) (w : World) (out : MjOutcome) : Prop :=
  match out.task with
  | some task => task.quota = out.taken userId w
  | none => out.taken userId w = 0

section Call

variable {cfg : BillingConfig} {env : MjEnv} {relayInfo : RelayInfo} {rows : List Midjourney}
  {id : ℤ} {w : World}

/-- A charge takes the price, if it goes through. -/
theorem chargeMjTask_taken (hsource : relayInfo.billingSource ≠ billingSourceSubscription)
    (quota : ℤ) :
    w.userQuota relayInfo.userId -
        (chargeMjTask cfg env relayInfo quota w).userQuota relayInfo.userId =
      if cfg.Reliable env.charge.funding.user then quota else 0 := by
  have hfunding : postConsumeFunding cfg env.charge.funding relayInfo quota w =
      if cfg.Reliable env.charge.funding.user then
        .ok (relayInfo, w.addUserQuota relayInfo.userId (-quota))
      else (changeQuota cfg env.charge.funding.user |quota|
        (World.addUserQuota relayInfo.userId (-quota)) w).map fun w => (relayInfo, w) := by
    unfold postConsumeFunding
    rw [if_neg hsource]
    by_cases hpos : 0 < quota
    · rw [if_pos hpos, decreaseUserQuota, abs_of_pos hpos]
      split
      · rename_i hreliable
        rw [changeQuota_reliable w hpos.le hreliable]
        rfl
      · rfl
    · have hneg : 0 ≤ -quota := by omega
      rw [if_neg hpos, increaseUserQuota, abs_of_nonpos (by omega)]
      split
      · rename_i hreliable
        rw [changeQuota_reliable w hneg hreliable]
        rfl
      · rfl
  unfold chargeMjTask postConsumeQuota
  rw [hfunding]
  by_cases hreliable : cfg.Reliable env.charge.funding.user
  · rw [if_pos hreliable, if_pos hreliable]
    simp only
    cases htoken : BillingSession.settleToken cfg env.charge.token quota relayInfo
        (w.addUserQuota relayInfo.userId (-quota)) with
    | error e =>
      simp only [World.addUserQuota_self]
      omega
    | ok w' =>
      obtain rfl := BillingSession.settleToken_ok htoken
      simp only [RelayInfo.takeToken_userQuota, World.addUserQuota_self]
      omega
  · rw [if_neg hreliable, if_neg hreliable]
    obtain ⟨e, he⟩ := @changeQuota_unreliable cfg env.charge.funding.user |quota|
      (World.addUserQuota relayInfo.userId (-quota)) w hreliable
    rw [he]
    exact sub_self _

/-- What is taken when a function returns. -/
theorem charged_taken (hsource : relayInfo.billingSource ≠ billingSourceSubscription) (quota : ℤ)
    {c charged : Prop} [Decidable c] [Decidable charged] (hcharged : c ↔ charged) :
    w.userQuota relayInfo.userId -
        (if c then chargeMjTask cfg env relayInfo quota w else w).userQuota relayInfo.userId =
      if charged ∧ cfg.Reliable env.charge.funding.user then quota else 0 := by
  by_cases hc : c
  · rw [if_pos hc, chargeMjTask_taken hsource]
    have htrue := hcharged.mp hc
    simp only [htrue, true_and]
  · rw [if_neg hc, if_neg fun h => hc (hcharged.mpr h.1)]
    exact sub_self _

/-- A task that may be changed records what it did. -/
theorem Midjourney.refund_ite {c : Prop} [Decidable c] {task changed unchanged : Midjourney}
    (hchanged : changed.refund = task.refund) (hunchanged : unchanged.refund = task.refund) :
    (if c then changed else unchanged).refund = task.refund := by
  split
  · exact hchanged
  · exact hunchanged

/-- What the answer makes of a task does not change what it records. -/
theorem receiveMjAnswer_refund (action : String) (response : MidjourneyResponse)
    (task : Midjourney) : (receiveMjAnswer env action response task).refund = task.refund := by
  have hreason : (if mjSubmitted response.code then task
      else { task with failReason := response.description }).refund = task.refund :=
    Midjourney.refund_ite rfl rfl
  simp only [receiveMjAnswer]
  generalize (if response.code ≠ 21 then none else response.properties.bind fun properties =>
    properties.imageUrl.bind fun imageUrl =>
      properties.status.map fun status => (imageUrl, status)) = known
  cases known with
  | none => exact Midjourney.refund_ite hreason hreason
  | some result =>
    have hresult := @Midjourney.refund_ite (some result.2 = some "SUCCESS") _ task
    exact Midjourney.refund_ite (hresult hreason hreason) (hresult hreason hreason)

/-- A call that does not get an answer does nothing. -/
theorem run_unanswered {call : MjCall} (h : call.answered env relayInfo rows = none) :
    (call.run cfg env relayInfo rows id w).world = w ∧
      (call.run cfg env relayInfo rows id w).task = none := by
  cases call with
  | submit relayMode request =>
    simp only [MjCall.answered] at h
    simp only [MjCall.run, relayMidjourneySubmit]
    cases hprepared : prepareMjRequest env relayMode relayInfo.userId request rows with
    | error stop => exact ⟨rfl, rfl⟩
    | ok prepared =>
      obtain ⟨req, channelId⟩ := prepared
      simp only [hprepared] at h ⊢
      cases hasked : askMidjourney env (consumesQuota req.action) with
      | error stop => exact ⟨rfl, rfl⟩
      | ok answer =>
        rw [hasked] at h
        cases h
  | swapFace request =>
    simp only [MjCall.answered] at h
    simp only [MjCall.run, relaySwapFace]
    cases request with
    | none => exact ⟨rfl, rfl⟩
    | some images =>
      obtain ⟨sourceBase64, targetBase64⟩ := images
      simp only at h ⊢
      by_cases hempty : sourceBase64 = "" ∨ targetBase64 = ""
      · rw [if_pos hempty]
        exact ⟨rfl, rfl⟩
      · rw [if_neg hempty] at h ⊢
        cases hasked : askMidjourney env true with
        | error stop => exact ⟨rfl, rfl⟩
        | ok answer =>
          rw [hasked] at h
          cases h

/-- **A call that gets an answer** takes the price if it is charged, and stores the price with its
task. -/
theorem run_answered (hsource : relayInfo.billingSource ≠ billingSourceSubscription)
    {call : MjCall} {quota : ℤ} {charged stored : Bool}
    (h : call.answered env relayInfo rows = some (quota, charged, stored)) :
    (call.run cfg env relayInfo rows id w).taken relayInfo.userId w =
        (if charged = true ∧ cfg.Reliable env.charge.funding.user then quota else 0) ∧
      (call.run cfg env relayInfo rows id w).task.map Midjourney.refund =
        if stored then some ⟨id, relayInfo.userId, quota⟩ else none := by
  cases call with
  | submit relayMode request =>
    simp only [MjCall.answered] at h
    simp only [MjCall.run, relayMidjourneySubmit]
    cases hprepared : prepareMjRequest env relayMode relayInfo.userId request rows with
    | error stop =>
      rw [hprepared] at h
      cases h
    | ok prepared =>
      obtain ⟨req, channelId⟩ := prepared
      simp only [hprepared] at h ⊢
      cases hasked : askMidjourney env (consumesQuota req.action) with
      | error stop =>
        rw [hasked] at h
        cases h
      | ok answer =>
        obtain ⟨price, statusCode, response⟩ := answer
        simp only [hasked, Option.some.injEq, Prod.mk.injEq] at h
        obtain ⟨rfl, rfl, rfl⟩ := h
        simp only
        by_cases hpanics : response.code = 3 ∧ env.autoBan channelId = none
        · rw [if_pos hpanics]
          refine ⟨charged_taken hsource price ?_, ?_⟩
          · simp [hpanics]
          · simp [hpanics]
        · rw [if_neg hpanics]
          by_cases hinsert : env.insert = false
          · rw [if_pos hinsert]
            refine ⟨charged_taken hsource price ?_, ?_⟩
            · simp only [hpanics, decide_false, Bool.false_or, Bool.and_eq_true,
                decide_eq_true_eq]
              tauto
            · simp [hinsert]
          · rw [if_neg hinsert]
            refine ⟨charged_taken hsource price ?_, ?_⟩
            · simp only [hpanics, decide_false, Bool.false_or, Bool.and_eq_true,
                decide_eq_true_eq]
              tauto
            · simp only [Option.map_some, receiveMjAnswer_refund]
              simp [hinsert, hpanics, newMjTask, Midjourney.refund]
  | swapFace request =>
    simp only [MjCall.answered] at h
    simp only [MjCall.run, relaySwapFace]
    cases request with
    | none => cases h
    | some images =>
      obtain ⟨sourceBase64, targetBase64⟩ := images
      simp only at h ⊢
      by_cases hempty : sourceBase64 = "" ∨ targetBase64 = ""
      · rw [if_pos hempty] at h
        cases h
      · rw [if_neg hempty] at h ⊢
        cases hasked : askMidjourney env true with
        | error stop =>
          rw [hasked] at h
          cases h
        | ok answer =>
          obtain ⟨price, statusCode, response⟩ := answer
          simp only [hasked, Option.some.injEq, Prod.mk.injEq] at h
          obtain ⟨rfl, rfl, rfl⟩ := h
          simp only
          by_cases hinsert : env.insert = false
          · rw [if_pos hinsert]
            refine ⟨charged_taken hsource price ?_, ?_⟩
            · simp
            · simp [hinsert]
          · rw [if_neg hinsert]
            refine ⟨charged_taken hsource price ?_, ?_⟩
            · simp
            · simp [hinsert, newMjTask, Midjourney.refund]

theorem quota_of_askMidjourney {consumeQuota : Bool} {quota statusCode : ℤ}
    {response : MidjourneyResponse}
    (h : askMidjourney env consumeQuota = .ok (quota, statusCode, response)) :
    env.quota = .ok quota := by
  unfold askMidjourney at h
  cases hquota : env.quota with
  | error e =>
    rw [hquota] at h
    cases h
  | ok price =>
    cases huser : env.userQuota with
    | error e =>
      rw [hquota, huser] at h
      cases h
    | ok userQuota =>
      simp only [hquota, huser] at h
      by_cases hlow : consumeQuota = true ∧ userQuota - price < 0
      · rw [if_pos hlow] at h
        cases h
      · rw [if_neg hlow] at h
        cases hhttp : env.http with
        | error e =>
          rw [hhttp] at h
          cases h
        | ok answer =>
          obtain ⟨code, response'⟩ := answer
          simp only [hhttp, Except.ok.injEq, Prod.mk.injEq] at h
          rw [h.1]

/-- The price of an answered call is the one that was looked up. -/
theorem quota_of_answered {call : MjCall} {quota : ℤ} {charged stored : Bool}
    (h : call.answered env relayInfo rows = some (quota, charged, stored)) :
    env.quota = .ok quota := by
  cases call with
  | submit relayMode request =>
    simp only [MjCall.answered] at h
    cases hprepared : prepareMjRequest env relayMode relayInfo.userId request rows with
    | error stop =>
      rw [hprepared] at h
      cases h
    | ok prepared =>
      obtain ⟨req, channelId⟩ := prepared
      simp only [hprepared] at h
      cases hasked : askMidjourney env (consumesQuota req.action) with
      | error stop =>
        rw [hasked] at h
        cases h
      | ok answer =>
        obtain ⟨price, statusCode, response⟩ := answer
        simp only [hasked, Option.some.injEq, Prod.mk.injEq] at h
        rw [← h.1]
        exact quota_of_askMidjourney hasked
  | swapFace request =>
    simp only [MjCall.answered] at h
    cases request with
    | none => cases h
    | some images =>
      obtain ⟨sourceBase64, targetBase64⟩ := images
      simp only at h
      by_cases hempty : sourceBase64 = "" ∨ targetBase64 = ""
      · rw [if_pos hempty] at h
        cases h
      · rw [if_neg hempty] at h
        cases hasked : askMidjourney env true with
        | error stop =>
          rw [hasked] at h
          cases h
        | ok answer =>
          obtain ⟨price, statusCode, response⟩ := answer
          simp only [hasked, Option.some.injEq, Prod.mk.injEq] at h
          rw [← h.1]
          exact quota_of_askMidjourney hasked

/-- A task that is stored records the price, under its identifier and for its user. -/
theorem run_stored (hsource : relayInfo.billingSource ≠ billingSourceSubscription)
    {call : MjCall} {task : Midjourney}
    (h : (call.run cfg env relayInfo rows id w).task = some task) :
    task.refund = ⟨id, relayInfo.userId, task.quota⟩ ∧ env.quota = .ok task.quota := by
  cases hanswered : call.answered env relayInfo rows with
  | none =>
    rw [(run_unanswered hanswered).2] at h
    cases h
  | some answer =>
    obtain ⟨quota, charged, stored⟩ := answer
    have htask := (@run_answered cfg env relayInfo rows id w hsource call _ _ _ hanswered).2
    rw [h, Option.map_some] at htask
    cases stored with
    | false => cases htask
    | true =>
      have hrefund : task.refund = ⟨id, relayInfo.userId, quota⟩ := Option.some.inj htask
      have hquota : task.quota = quota := congrArg MjRefund.quota hrefund
      refine ⟨?_, ?_⟩
      · rw [hrefund, hquota]
      · rw [hquota]
        exact quota_of_answered hanswered

/-- **A call records its charge exactly under the condition.** -/
theorem records_charge_iff (hsource : relayInfo.billingSource ≠ billingSourceSubscription)
    (call : MjCall) :
    RecordsCharge relayInfo.userId w (call.run cfg env relayInfo rows id w) ↔
      call.Agrees cfg env relayInfo rows := by
  cases h : call.answered env relayInfo rows with
  | none =>
    obtain ⟨hworld, htask⟩ := @run_unanswered cfg env relayInfo rows id w call h
    simp [RecordsCharge, MjCall.Agrees, MjOutcome.taken, hworld, htask, h]
  | some answer =>
    obtain ⟨quota, charged, stored⟩ := answer
    obtain ⟨htaken, htask⟩ := @run_answered cfg env relayInfo rows id w hsource call _ _ _ h
    simp only [RecordsCharge, MjCall.Agrees, h, htaken]
    cases stored with
    | false =>
      have hnone : (call.run cfg env relayInfo rows id w).task = none := by simpa using htask
      rw [hnone]
      by_cases hpaid : charged = true ∧ cfg.Reliable env.charge.funding.user
      · simp [hpaid]
      · simp [hpaid]
    | true =>
      obtain ⟨task, hsome, hrefund⟩ : ∃ task,
          (call.run cfg env relayInfo rows id w).task = some task ∧
            task.refund = ⟨id, relayInfo.userId, quota⟩ := by
        simpa using htask
      have hquota : task.quota = quota := congrArg MjRefund.quota hrefund
      rw [hsome]
      by_cases hpaid : charged = true ∧ cfg.Reliable env.charge.funding.user
      · simp [hpaid, hquota]
      · simp [hpaid, hquota]

end Call

/-! ### Calls and pollers -/

/-- The tasks and their pollers, the identifier of the next task, and what has been taken from each
user for tasks. -/
structure MjSystem where
  mj : MjState := { rows := [] }
  nextId : ℤ := 1
  charged : ℤ → ℤ := fun _ => 0

/-- A call, a step of a poller, or a restart, which ends the rounds of the pollers.  What a call has
read of the tasks may be out of date. -/
inductive MjSystemAction where
  | call (cfg : BillingConfig) (env : MjEnv) (relayInfo : RelayInfo) (call : MjCall)
      (rows : List Midjourney) (w : World)
  | poll (p : ℕ) (a : MjAction)
  | restart

variable (marshal : List String → String)

def mjSystemStep (s : MjSystem) : MjSystemAction → MjSystem
  | .call cfg env relayInfo call rows w =>
    let out := call.run cfg env relayInfo rows s.nextId w
    { mj := { s.mj with rows := s.mj.rows ++ out.task.toList }
      nextId := s.nextId + 1
      charged := Function.update s.charged relayInfo.userId
        (s.charged relayInfo.userId + out.taken relayInfo.userId w) }
  | .poll p a => { s with mj := midjourneyStep marshal s.mj (p, a) }
  | .restart => { s with mj := { s.mj with pollers := fun _ => {}, panicked := false } }

/-- What refunds amount to for a user. -/
def refundedTo (userId : ℤ) (refunds : List MjRefund) : ℤ :=
  ((refunds.filter (·.userId = userId)).map MjRefund.quota).sum

/-- **The refunds of a user's tasks do not exceed what was charged for them.** -/
def MjSystem.Covered (s : MjSystem) : Prop :=
  ∀ userId, refundedTo userId s.mj.credits ≤ s.charged userId

/-- A poller does not refund a task that has been refunded. -/
def MjOnce (s : MjState) : ℕ × MjAction → Prop
  | (p, .item now faults) =>
    match (s.pollers p).responseItems with
    | [] => True
    | responseItem :: _ =>
      match (s.pollers p).taskM responseItem.mjId with
      | none => True
      | some task =>
        checkMjTaskNeedUpdate marshal task (responseItem.timeOut task now) →
          (∃ row ∈ s.rows, task.Reaches task.status row) → faults.write = false →
            task.shouldReturnQuota marshal (responseItem.timeOut task now) →
              ∀ refund ∈ s.credits, refund.taskId ≠ task.id
  | _ => True

variable {marshal} in
theorem mjOnce_item {s : MjState} {p : ℕ} {now : ℤ} {faults : MjFaults} :
    (∀ responseItem ∈ (s.pollers p).responseItems.head?,
      ∀ task ∈ (s.pollers p).taskM responseItem.mjId,
        checkMjTaskNeedUpdate marshal task (responseItem.timeOut task now) = true →
          (∃ row ∈ s.rows, task.Reaches task.status row) → faults.write = false →
            task.shouldReturnQuota marshal (responseItem.timeOut task now) →
              ∀ refund ∈ s.credits, refund.taskId ≠ task.id) ↔
      MjOnce marshal s (p, .item now faults) := by
  simp only [MjOnce]
  cases hitems : (s.pollers p).responseItems with
  | nil => simp
  | cons responseItem rest =>
    cases htask : (s.pollers p).taskM responseItem.mjId with
    | none => simp [htask]
    | some task => simp [htask]

instance MjOnce.instDecidable (s : MjState) (a : ℕ × MjAction) : Decidable (MjOnce marshal s a) := by
  obtain ⟨p, a⟩ := a
  cases a with
  | item now faults => exact decidable_of_iff _ mjOnce_item
  | _ => exact .isTrue trivial

/-- **The condition on a step**: a call records its charge, at a price that is not negative, and a
poller does not refund a task that has been refunded. -/
def MjPaid (s : MjSystem) : MjSystemAction → Prop
  | .call cfg env relayInfo call rows _ =>
    relayInfo.billingSource ≠ billingSourceSubscription ∧
      call.Agrees cfg env relayInfo rows ∧ ∀ quota, env.quota = .ok quota → 0 ≤ quota
  | .poll p a => MjOnce marshal s.mj (p, a)
  | .restart => True

/-- What the steps of pollers keep, where `refunds` are those the rows ask for. -/
structure MjKept (refunds : List MjRefund) (s : MjState) : Prop where
  rows : s.rows.map Midjourney.refund = refunds
  known : ∀ p key task, (s.pollers p).taskM key = some task → task.refund ∈ refunds
  once : (s.credits.map MjRefund.taskId).Nodup
  owed : ∀ refund ∈ s.credits, refund ∈ refunds

namespace MjKept

variable {marshal} {refunds : List MjRefund} {s : MjState}

theorem setRound (h : MjKept refunds s) (p : ℕ) {round : MjRound}
    (hround : ∀ key task, round.taskM key = some task → task.refund ∈ refunds) :
    MjKept refunds (s.setRound p round) where
  rows := h.rows
  once := h.once
  owed := h.owed
  known q key task htask := by
    by_cases hq : q = p
    · subst hq
      refine hround key task ?_
      simpa [MjState.setRound] using htask
    · refine h.known q key task ?_
      simpa [MjState.setRound, hq] using htask

/-- The rows may be changed in what they do not record. -/
theorem mapRows (h : MjKept refunds s) {f : Midjourney → Midjourney}
    (hf : ∀ row ∈ s.rows, (f row).refund = row.refund) :
    MjKept refunds { s with rows := s.rows.map f } where
  known := h.known
  once := h.once
  owed := h.owed
  rows := by
    rw [← h.rows, List.map_map]
    exact List.map_congr_left hf

/-- A poller takes a channel. -/
theorem channel (h : MjKept refunds s) (p : ℕ) (channelId : ℤ) (answer : MjAnswer) (ok : Bool) :
    MjKept refunds (s.channel p channelId answer ok) := by
  cases answer with
  | missing =>
    refine setRound ?_ p (h.known p)
    cases ok with
    | false => exact h
    | true =>
      refine h.mapRows fun row _ => ?_
      split
      · rfl
      · rfl
  | noBaseURL => exact ⟨h.rows, h.known, h.once, h.owed⟩
  | noResponse => exact h.setRound p (h.known p)
  | response items => exact h.setRound p (h.known p)

/-- A poller writes back a task it knows. -/
theorem write (hids : (refunds.map MjRefund.taskId).Nodup) (h : MjKept refunds s)
    {task : Midjourney} {responseItem : MidjourneyDto} {faults : MjFaults}
    (htask : task.refund ∈ refunds)
    (honce : (∃ row ∈ s.rows, task.Reaches task.status row) → faults.write = false →
      task.shouldReturnQuota marshal responseItem → ∀ refund ∈ s.credits, refund.taskId ≠ task.id) :
    MjKept refunds (s.write marshal task responseItem faults) := by
  by_cases hfault : faults.write = true
  · rw [MjState.write, if_pos hfault]
    exact h
  have hreaches (row : Midjourney) : (task.settle marshal responseItem).Reaches task.status row ↔
      task.Reaches task.status row := by
    simp [Midjourney.Reaches]
  have hkeeps : ∀ row ∈ s.rows,
      (if task.Reaches task.status row then task.settle marshal responseItem else row).refund
        = row.refund := by
    intro row hrow
    by_cases hreach : task.Reaches task.status row
    · have hmem : row.refund ∈ refunds := h.rows ▸ List.mem_map_of_mem hrow
      rw [if_pos hreach, Midjourney.settle_refund]
      exact (MjInv.refund_eq hids hmem htask hreach.1).symm
    · rw [if_neg hreach]
  have hwritten := h.mapRows hkeeps
  simp only [MjState.write, Midjourney.updateWithStatus, hreaches, if_neg hfault]
  by_cases hrefund : (s.rows.any fun row => task.Reaches task.status row) = true ∧
      task.shouldReturnQuota marshal responseItem
  · rw [if_pos hrefund]
    obtain ⟨hwon, hshould⟩ := hrefund
    have hfresh := honce (by simpa using hwon) (by simpa using hfault) hshould
    by_cases hcredit : task.refund.quota < 0 ∨ faults.credit = true
    · rw [increaseMjQuota, if_pos hcredit]
      exact hwritten
    · rw [increaseMjQuota, if_neg hcredit]
      refine ⟨hwritten.rows, hwritten.known, ?_, ?_⟩
      · rw [List.map_append, List.nodup_append]
        refine ⟨h.once, List.nodup_singleton _, ?_⟩
        intro x hx y hy hxy
        obtain ⟨refund, hmem, rfl⟩ := List.mem_map.mp hx
        rw [List.map_singleton, List.mem_singleton] at hy
        exact hfresh refund hmem (hxy.trans hy)
      · intro refund hmem
        rcases List.mem_append.mp hmem with hold | hnew
        · exact h.owed refund hold
        · rw [List.mem_singleton.mp hnew]
          exact htask
  · rw [if_neg hrefund]
    exact hwritten

/-- **A step of a poller** that does not refund a task again keeps the rows' refunds. -/
theorem step (hids : (refunds.map MjRefund.taskId).Nodup) (h : MjKept refunds s) {p : ℕ}
    {a : MjAction} (honce : MjOnce marshal s (p, a)) :
    MjKept refunds (midjourneyStep marshal s (p, a)) := by
  by_cases hpanicked : s.panicked = true
  · rw [midjourneyStep, if_pos hpanicked]
    exact h
  rw [midjourneyStep, if_neg hpanicked]
  cases a with
  | read =>
    dsimp only
    split
    · refine h.setRound p fun key task htask => ?_
      rcases MjRound.mem_of_taskM htask with hmem | hnone
      · rw [← h.rows]
        exact List.mem_map_of_mem (List.mem_of_mem_filter hmem)
      · cases hnone
    · exact h
  | nullTasks ok =>
    refine setRound ?_ p (h.known p)
    cases ok with
    | false => exact h
    | true =>
      refine h.mapRows fun row _ => ?_
      split
      · rfl
      · rfl
  | channel channelId answer ok =>
    dsimp only
    split
    · exact h.channel p channelId answer ok
    · exact h
  | item now faults =>
    dsimp only
    cases hitems : (s.pollers p).responseItems with
    | nil => exact h
    | cons responseItem rest =>
      simp only [MjOnce, hitems] at honce
      cases htask : (s.pollers p).taskM responseItem.mjId with
      | none =>
        simp only [MjState.item, htask]
        exact ⟨h.rows, h.known, h.once, h.owed⟩
      | some task =>
        rw [htask] at honce
        have hmem := h.known p _ _ htask
        simp only [MjState.item, htask]
        split
        · exact h.setRound p (h.known p)
        · rename_i hneed
          have hwrite := h.write hids hmem (honce (by simpa using hneed))
          refine hwrite.setRound p fun key task' htask' => ?_
          simp only [Function.update_apply] at htask'
          split at htask'
          · rw [← Option.some.inj htask', Midjourney.settle_refund]
            exact hmem
          · exact h.known p key task' htask'

end MjKept

/-- What calls and pollers keep: identifiers are not used twice, no quota is negative, what has been
charged to a user is what the tasks record, and tasks are refunded at most once. -/
structure MjBacked (s : MjSystem) : Prop where
  ids : ((s.mj.rows.map Midjourney.refund).map MjRefund.taskId).Nodup
  below : ∀ refund ∈ s.mj.rows.map Midjourney.refund, refund.taskId < s.nextId
  price : ∀ refund ∈ s.mj.rows.map Midjourney.refund, 0 ≤ refund.quota
  charged : ∀ userId, s.charged userId = refundedTo userId (s.mj.rows.map Midjourney.refund)
  kept : MjKept (s.mj.rows.map Midjourney.refund) s.mj

theorem refundedTo_append (userId : ℤ) (refunds refunds' : List MjRefund) :
    refundedTo userId (refunds ++ refunds') =
      refundedTo userId refunds + refundedTo userId refunds' := by
  simp [refundedTo]

/-- Fewer refunds amount to less. -/
theorem refundedTo_le {refunds refunds' : List MjRefund} (hsub : refunds.Subperm refunds')
    (hprice : ∀ refund ∈ refunds', 0 ≤ refund.quota) (userId : ℤ) :
    refundedTo userId refunds ≤ refundedTo userId refunds' := by
  obtain ⟨part, hperm, hsublist⟩ := hsub
  have hpart : refundedTo userId part ≤ refundedTo userId refunds' := by
    refine ((hsublist.filter _).map _).sum_le_sum ?_
    intro quota hquota
    obtain ⟨refund, hrefund, rfl⟩ := List.mem_map.mp hquota
    exact hprice refund (List.mem_of_mem_filter hrefund)
  have hsame : refundedTo userId part = refundedTo userId refunds :=
    ((hperm.filter _).map _).sum_eq
  omega

namespace MjBacked

variable {marshal} {s : MjSystem}

theorem start : MjBacked {} where
  ids := List.nodup_nil
  below _ h := by cases h
  price _ h := by cases h
  charged _ := rfl
  kept :=
    { rows := rfl
      known := fun _ _ _ h => by cases h
      once := List.nodup_nil
      owed := fun _ h => by cases h }

/-- The refunds that have been given are among those that have been paid for. -/
theorem covered (h : MjBacked s) : s.Covered := by
  intro userId
  have hsub : s.mj.credits.Subperm (s.mj.rows.map Midjourney.refund) :=
    List.subperm_of_subset h.kept.once.of_map fun refund hrefund => h.kept.owed refund hrefund
  rw [h.charged userId]
  exact refundedTo_le hsub h.price userId

/-- A call that records its charge. -/
theorem call (h : MjBacked s) {cfg : BillingConfig} {env : MjEnv} {relayInfo : RelayInfo}
    {call : MjCall} {rows : List Midjourney} {w : World}
    (hsource : relayInfo.billingSource ≠ billingSourceSubscription)
    (hagrees : call.Agrees cfg env relayInfo rows)
    (hprice : ∀ quota, env.quota = .ok quota → 0 ≤ quota) :
    MjBacked (mjSystemStep marshal s (.call cfg env relayInfo call rows w)) := by
  have hrecords := (@records_charge_iff cfg env relayInfo rows s.nextId w hsource call).mpr hagrees
  unfold RecordsCharge at hrecords
  cases htask : (call.run cfg env relayInfo rows s.nextId w).task with
  | none =>
    -- nothing has been taken, and only an identifier has been used up
    rw [htask] at hrecords
    have hsame : mjSystemStep marshal s (.call cfg env relayInfo call rows w) =
        { s with nextId := s.nextId + 1 } := by
      simp only [mjSystemStep, htask, hrecords, Option.toList_none, List.append_nil, add_zero,
        Function.update_eq_self]
    rw [hsame]
    refine ⟨h.ids, fun refund hrefund => ?_, h.price, h.charged, h.kept⟩
    have hbelow := h.below refund hrefund
    simp only
    omega
  | some task =>
    rw [htask] at hrecords
    obtain ⟨hrefund, hquota⟩ := run_stored hsource htask
    have hrows : (s.mj.rows ++ (some task).toList).map Midjourney.refund =
        s.mj.rows.map Midjourney.refund ++ [task.refund] := by
      simp
    simp only [mjSystemStep, htask]
    refine ⟨?_, ?_, ?_, ?_, ?_⟩
    · rw [hrows, List.map_append, List.nodup_append]
      refine ⟨h.ids, List.nodup_singleton _, ?_⟩
      intro x hx y hy
      obtain ⟨refund, hmem, rfl⟩ := List.mem_map.mp hx
      rw [List.map_singleton, List.mem_singleton, hrefund] at hy
      have hbelow := h.below refund hmem
      rw [hy]
      exact ne_of_lt hbelow
    · intro refund hmem
      rw [hrows] at hmem
      rcases List.mem_append.mp hmem with hold | hnew
      · have hbelow := h.below refund hold
        simp only
        omega
      · rw [List.mem_singleton.mp hnew, hrefund]
        simp only
        omega
    · intro refund hmem
      rw [hrows] at hmem
      rcases List.mem_append.mp hmem with hold | hnew
      · exact h.price refund hold
      · rw [List.mem_singleton.mp hnew]
        exact hprice task.quota hquota
    · intro userId
      rw [hrows, refundedTo_append, ← h.charged userId, ← hrecords]
      dsimp only
      by_cases huser : userId = relayInfo.userId
      · subst huser
        rw [Function.update_self, hrefund]
        simp [refundedTo]
      · rw [Function.update_of_ne huser, hrefund]
        simp [refundedTo, Ne.symm huser]
    · rw [hrows]
      refine
        { rows := hrows
          known := fun p key known hknown => ?_
          once := h.kept.once
          owed := fun refund hmem => ?_ }
      · exact List.mem_append_left _ (h.kept.known p key known hknown)
      · exact List.mem_append_left _ (h.kept.owed refund hmem)

/-- A step of a poller. -/
theorem poll (h : MjBacked s) {p : ℕ} {a : MjAction} (honce : MjOnce marshal s.mj (p, a)) :
    MjBacked (mjSystemStep marshal s (.poll p a)) := by
  have hkept := h.kept.step h.ids honce
  have hrows := hkept.rows
  refine ⟨?_, ?_, ?_, ?_, ?_⟩
  · rw [mjSystemStep, hrows]
    exact h.ids
  · rw [mjSystemStep, hrows]
    exact h.below
  · rw [mjSystemStep, hrows]
    exact h.price
  · rw [mjSystemStep, hrows]
    exact h.charged
  · rw [mjSystemStep, hrows]
    exact hkept

/-- **Steps that meet the condition** keep the charges backed. -/
theorem step (s : MjSystem) (a : MjSystemAction) (h : MjBacked s) (hpaid : MjPaid marshal s a) :
    MjBacked (mjSystemStep marshal s a) := by
  cases a with
  | call cfg env relayInfo call rows w =>
    obtain ⟨hsource, hagrees, hprice⟩ := hpaid
    exact h.call hsource hagrees hprice
  | poll p a => exact h.poll hpaid
  | restart =>
    refine ⟨h.ids, h.below, h.price, h.charged, ?_⟩
    exact
      { rows := h.kept.rows
        known := fun _ _ _ hnone => by cases hnone
        once := h.kept.once
        owed := h.kept.owed }

end MjBacked

/-! ### The charges -/

/-- **A task records what it was charged exactly under the condition**, whatever the mode, the
action, the answer and the outcome of the insert, and nothing is charged if no task has been stored.
In runs whose calls all meet the condition, at prices that are not negative, and whose pollers
refund no task again, the refunds of a user's tasks never exceed what was charged for them. -/
theorem midjourney_charge_recorded :
    (∀ (cfg : BillingConfig) (env : MjEnv) (relayInfo : RelayInfo) (rows : List Midjourney) (id : ℤ)
      (w : World) (call : MjCall), relayInfo.billingSource ≠ billingSourceSubscription →
        (RecordsCharge relayInfo.userId w (call.run cfg env relayInfo rows id w) ↔
          call.Agrees cfg env relayInfo rows)) ∧
      ∀ as : List MjSystemAction, Transition.Along (mjSystemStep marshal) (MjPaid marshal) {} as →
        (Transition.run (mjSystemStep marshal) {} as).Covered := by
  constructor
  · intro cfg env relayInfo rows id w call hsource
    exact records_charge_iff hsource call
  · intro as has
    exact (Transition.run_invariant MjBacked.step MjBacked.start has).covered

/-- What a call finds if the upstream answers with a code, and the price is 100. -/
def mjEnv (code : ℤ) : MjEnv where
  now := 0
  channelId := 3
  quota := .ok 100
  userQuota := .ok 100
  http := .ok (200, { code := code, result := "m" })

/-- A request to draw a cat. -/
def imagineCat : MjCall := .submit .imagine (some { prompt := "cat" })

/-- A request to change a part of the image of task "o", which is for free. -/
def inpaintCat : MjCall := .submit .action (some { customId := "MJ::Inpaint::1", taskId := "o" })

/-- The quotas a call finds. -/
def mjWorld : World := plainWorld (Tables.empty fun _ => "default")

/-- A call that the upstream answers with a code, and then a poller that is told that the task has
failed. -/
def failingTask (code : ℤ) : List MjSystemAction :=
  [.call plainConfig (mjEnv code) (plainRequest "wallet_only") imagineCat [] mjWorld, .poll 0 .read,
    .poll 0 (.channel 3 (.response [mjItem "m" "FAILURE"]) true), .poll 0 (.item 1 {})]

/-- The image of a cat is charged, and refunded once. -/
theorem midjourney_charge_recorded_imagine :
    RecordsCharge 1 mjWorld (imagineCat.run plainConfig (mjEnv 1) (plainRequest "wallet_only") []
        1 mjWorld) ∧
      (Transition.run (mjSystemStep fun _ => "[]") {} (failingTask 1)).Covered ∧
      refundedTo 1
        (Transition.run (mjSystemStep fun _ => "[]") {} (failingTask 1)).mj.credits =
          100 := by
  obtain ⟨hcall, hrun⟩ := midjourney_charge_recorded fun _ => "[]"
  refine ⟨(hcall plainConfig (mjEnv 1) (plainRequest "wallet_only") [] 1 mjWorld imagineCat
    (by decide)).mpr (by decide), hrun _ ?_, by decide⟩
  refine ⟨⟨by decide, by decide, ?_⟩, trivial, trivial, ?_, trivial⟩
  · intro quota hquota
    cases hquota
    decide
  · unfold MjPaid
    decide

/-- **A task that has not been charged is refunded.**  Changing a part of an image is for free, but
its task records the price, and so does a task that the queue of the upstream had no place for; and
a task that has not been stored may be charged. -/
theorem refused_task_refunded :
    let success := { mjTask "o" with userId := 1, status := "SUCCESS" }
    let free :=
      inpaintCat.run plainConfig (mjEnv 1) (plainRequest "wallet_only") [success] 1 mjWorld
    let refused :=
      imagineCat.run plainConfig (mjEnv 23) (plainRequest "wallet_only") [] 1 mjWorld
    let lost := imagineCat.run plainConfig { mjEnv 1 with insert := false }
      (plainRequest "wallet_only") [] 1 mjWorld
    (free.task.map (·.quota) = some 100 ∧ free.taken 1 mjWorld = 0) ∧
      (refused.task.map (·.quota) = some 100 ∧ refused.taken 1 mjWorld = 0) ∧
      (lost.task = none ∧ lost.taken 1 mjWorld = 100) ∧
      ¬ RecordsCharge 1 mjWorld free ∧ ¬ RecordsCharge 1 mjWorld refused ∧
      ¬ RecordsCharge 1 mjWorld lost ∧
      ¬ (Transition.run (mjSystemStep fun _ => "[]") {} (failingTask 23)).Covered := by
  intro success free refused lost
  have hfree : free.task.map (·.quota) = some 100 ∧ free.taken 1 mjWorld = 0 := by decide
  have hrefused : refused.task.map (·.quota) = some 100 ∧ refused.taken 1 mjWorld = 0 := by
    decide
  have hlost : lost.task = none ∧ lost.taken 1 mjWorld = 100 := by decide
  refine ⟨hfree, hrefused, hlost, ?_, ?_, ?_, ?_⟩
  · intro h
    obtain ⟨task, htask, hquota⟩ := Option.map_eq_some_iff.mp hfree.1
    simp only [RecordsCharge, htask] at h
    omega
  · intro h
    obtain ⟨task, htask, hquota⟩ := Option.map_eq_some_iff.mp hrefused.1
    simp only [RecordsCharge, htask] at h
    omega
  · intro h
    simp only [RecordsCharge, hlost.1] at h
    omega
  · intro h
    exact absurd (h 1) (by decide)

end NewApi
