import DataPlacement.Device.Queues

namespace DataPlacement

/-! ### Completions -/

/-- No refusal looks like a success, since its status forbids a retry. -/
theorem Error.isSuccess_status (cause : Error) : cause.status.isSuccess = false := by
  have hbit : cause.statusCode.raw ||| Status.doNotRetryBit ≠ 0 := by
    simp [Status.doNotRetryBit]
  simpa [Error.status, Status.withDoNotRetry, Status.isSuccess] using hbit

namespace Completion

@[simp] theorem isOk_done (n : Nat) : (done n).isOk = true := rfl

@[simp] theorem isOk_refused (cause : Error) : (refused cause).isOk = false :=
  cause.isSuccess_status

end Completion

/-! ### Windows -/

namespace Host.Window

variable {w : Window} {data payload : List UInt8} {requested : Nat}

theorem writeAt_zero (h : data.length ≤ w.limit) :
    (w.writeAt 0 data).1 = .ok () ∧ (w.writeAt 0 data).2.limit = w.limit ∧
      (w.writeAt 0 data).2.bytes = data ++ w.bytes.drop data.length := by
  have hfits : 0 + data.length ≤ w.limit := by omega
  rw [writeAt, dif_pos hfits]
  exact ⟨rfl, rfl, by simp [overlay]⟩

theorem transfer_of_long (h : w.limit < min requested payload.length) :
    Memory.transfer w payload requested = (.error .outOfBounds, w) := by
  have hlong : Memory.capacity w < min payload.length requested := by rwa [Nat.min_comm]
  rw [Memory.transfer, if_pos hlong]

end Host.Window

/-! ### Pages -/

namespace Page

open Host (Window)

/-- How many bytes of a page a request moves. -/
def share (page : List UInt8) (requested : Nat) : Nat := min requested page.length

theorem length_take_share (page : List UInt8) (requested : Nat) :
    (page.take (share page requested)).length = share page requested := by
  simp [share]

/-- The requested share of a page lies at the start of a buffer. It lies within the limit of the
window, and all else is as in the window before. -/
structure Delivered (page : List UInt8) (requested : Nat) (before after : Window) : Prop where
  fits : share page requested ≤ before.limit
  limit : after.limit = before.limit
  front : after.bytes.take (share page requested) = page.take (share page requested)
  back : after.bytes.drop (share page requested) = before.bytes.drop (share page requested)

/-- Why a page is not served into a window. A request that is too short is found before a window
that is too small. -/
inductive Refusal (page : List UInt8) (minimum requested : Nat) (w : Window) : Error → Prop where
  | short (h : requested < minimum) :
      Refusal page minimum requested w (.bufferTooSmall minimum requested)
  | overrun (hlong : minimum ≤ requested) (h : w.limit < share page requested) :
      Refusal page minimum requested w (.transfer .outOfBounds)

variable {page : List UInt8} {minimum requested : Nat} {w : Window} {cause : Error}

theorem transfer_of_fits (h : share page requested ≤ w.limit) :
    ∃ after, Host.Memory.transfer w page requested = (.ok (share page requested), after) ∧
      Delivered page requested w after := by
  have hcount : min page.length requested = share page requested := Nat.min_comm ..
  have hroom : ¬ Host.Memory.capacity w < share page requested := Nat.not_lt.2 h
  have hlength := length_take_share page requested
  obtain ⟨hok, hlimit, hbytes⟩ := Window.writeAt_zero (Nat.le_trans (Nat.le_of_eq hlength) h)
  refine ⟨(w.writeAt 0 (page.take (share page requested))).2, ?_, h, hlimit, ?_, ?_⟩
  · rw [Host.Memory.transfer]
    simp only [hcount, if_neg hroom]
    change (Except.map _ (w.writeAt 0 _).1, _) = _
    rw [hok]
    rfl
  · rw [hbytes, List.take_left' hlength]
  · rw [hbytes, List.drop_left' hlength, hlength]

theorem serve_of_refusal (h : Refusal page minimum requested w cause) :
    serve w page minimum requested = (.error cause, w) := by
  cases h with
  | short h => rw [serve, if_pos h]
  | overrun hlong h =>
    rw [serve, if_neg (Nat.not_lt.2 hlong), Host.Window.transfer_of_long h]
    rfl

theorem serve_of_fits (hlong : minimum ≤ requested) (h : share page requested ≤ w.limit) :
    ∃ after, serve w page minimum requested = (.ok (share page requested), after) ∧
      Delivered page requested w after := by
  obtain ⟨after, htransfer, hdelivered⟩ := transfer_of_fits h
  refine ⟨after, ?_, hdelivered⟩
  rw [serve, if_neg (Nat.not_lt.2 hlong), htransfer]
  rfl

/-- A request is refused unless it is long enough and its share of the page fits. -/
theorem refusal_or_fits (page : List UInt8) (minimum requested : Nat) (w : Window) :
    (∃ cause, Refusal page minimum requested w cause) ∨
      (minimum ≤ requested ∧ share page requested ≤ w.limit) := by
  by_cases hshort : requested < minimum
  · exact .inl ⟨_, .short hshort⟩
  · by_cases hover : w.limit < share page requested
    · exact .inl ⟨_, .overrun (by omega) hover⟩
    · exact .inr ⟨by omega, by omega⟩

theorem Refusal.not_fits (h : Refusal page minimum requested w cause) :
    ¬ (minimum ≤ requested ∧ share page requested ≤ w.limit) := by
  cases h <;> omega

end Page

/-! ### Commands for a page -/

namespace Device

open Host (Window)

variable {d : Device} {w : Window} {cause : Error}

/-- Why Get Log Page is refused, in the order in which the causes are looked for. -/
inductive LogRefusal (d : Device) (w : Window) (r : LogRequest) : Error → Prop where
  | unknown (hlog : r.page? = none) : LogRefusal d w r (.invalidLogId r.log)
  | disabled {name : LogPage} (hlog : r.page? = some name) (hoff : d.enabled = false) :
      LogRefusal d w r .disabled
  | unserved {name : LogPage} {cause : Error} (hlog : r.page? = some name)
      (hon : d.enabled = true)
      (h : Page.Refusal (d.logPage name) name.minimum r.length w cause) : LogRefusal d w r cause

/-- Why IO Management Receive is refused, in the order in which the causes are looked for. -/
inductive StatusRefusal (d : Device) (w : Window) (r : ManagementRequest) : Error → Prop where
  | disabled (hoff : d.enabled = false) : StatusRefusal d w r .disabled
  | unsupported (hon : d.enabled = true) (hother : r.operation ≠ unitStatusOperation) :
      StatusRefusal d w r (.unsupportedOperation r.operation)
  | unserved {cause : Error} (hon : d.enabled = true) (hstatus : r.operation = unitStatusOperation)
      (h : Page.Refusal d.unitStatusPage Page.unitStatusHeader r.length w cause) :
      StatusRefusal d w r cause

/-- What Get Log Page needs to succeed. -/
def LogServable (d : Device) (w : Window) (r : LogRequest) (name : LogPage) : Prop :=
  d.enabled = true ∧ r.page? = some name ∧ name.minimum ≤ r.length ∧
    Page.share (d.logPage name) r.length ≤ w.limit

/-- What IO Management Receive needs to succeed. -/
def StatusServable (d : Device) (w : Window) (r : ManagementRequest) : Prop :=
  d.enabled = true ∧ r.operation = unitStatusOperation ∧ Page.unitStatusHeader ≤ r.length ∧
    Page.share d.unitStatusPage r.length ≤ w.limit

section Log

variable {r : LogRequest} {name : LogPage}

theorem readLog_of_refusal (h : LogRefusal d w r cause) :
    (d.readLog w r).result = .error cause ∧ (d.readLog w r).memory = w := by
  cases h with
  | unknown hlog => simp [readLog, hlog]
  | disabled hlog hoff => simp [readLog, hlog, hoff]
  | unserved hlog hon h => simp [readLog, hlog, hon, Page.serve_of_refusal h]

theorem readLog_of_servable (h : LogServable d w r name) :
    (d.readLog w r).result = .ok (Page.share (d.logPage name) r.length) ∧
      Page.Delivered (d.logPage name) r.length w (d.readLog w r).memory := by
  obtain ⟨hon, hlog, hlong, hfits⟩ := h
  obtain ⟨after, hserve, hdelivered⟩ := Page.serve_of_fits hlong hfits
  simp [readLog, hlog, hon, hserve, hdelivered]

theorem log_refusal_or_servable (d : Device) (w : Window) (r : LogRequest) :
    (∃ cause, LogRefusal d w r cause) ∨ ∃ name, LogServable d w r name := by
  cases hlog : r.page? with
  | none => exact .inl ⟨_, .unknown hlog⟩
  | some name =>
    cases henabled : d.enabled with
    | false => exact .inl ⟨_, .disabled hlog henabled⟩
    | true =>
      obtain ⟨cause, h⟩ | ⟨hlong, hfits⟩ :=
        Page.refusal_or_fits (d.logPage name) name.minimum r.length w
      · exact .inl ⟨cause, .unserved hlog henabled h⟩
      · exact .inr ⟨name, henabled, hlog, hlong, hfits⟩

theorem LogRefusal.not_servable (h : LogRefusal d w r cause) : ¬ LogServable d w r name := by
  rintro ⟨hon, hlog, hlong, hfits⟩
  cases h with
  | unknown hnone => simp [hnone] at hlog
  | disabled _ hoff => simp [hoff] at hon
  | unserved hlog' _ h =>
    obtain rfl := Option.some.inj (hlog'.symm.trans hlog)
    exact h.not_fits ⟨hlong, hfits⟩

/-- Get Log Page is refused for the first cause that stands in its way. -/
theorem result_readLog_eq_error_iff :
    (d.readLog w r).result = .error cause ↔ LogRefusal d w r cause := by
  refine ⟨fun h => ?_, fun h => (readLog_of_refusal h).1⟩
  obtain ⟨cause', hrefusal⟩ | ⟨name, hservable⟩ := log_refusal_or_servable d w r
  · rw [(readLog_of_refusal hrefusal).1] at h
    exact Except.error.inj h ▸ hrefusal
  · rw [(readLog_of_servable hservable).1] at h
    cases h

end Log

section Status

variable {r : ManagementRequest}

theorem readUnitStatus_of_refusal (h : StatusRefusal d w r cause) :
    d.readUnitStatus w r = (.error cause, w) := by
  cases h with
  | disabled hoff => simp [readUnitStatus, hoff]
  | unsupported hon hother => simp [readUnitStatus, hon, hother]
  | unserved hon hstatus h => simp [readUnitStatus, hon, hstatus, Page.serve_of_refusal h]

theorem readUnitStatus_of_servable (h : StatusServable d w r) :
    (d.readUnitStatus w r).1 = .ok (Page.share d.unitStatusPage r.length) ∧
      Page.Delivered d.unitStatusPage r.length w (d.readUnitStatus w r).2 := by
  obtain ⟨hon, hstatus, hlong, hfits⟩ := h
  obtain ⟨after, hserve, hdelivered⟩ := Page.serve_of_fits hlong hfits
  simp [readUnitStatus, hon, hstatus, hserve, hdelivered]

theorem status_refusal_or_servable (d : Device) (w : Window) (r : ManagementRequest) :
    (∃ cause, StatusRefusal d w r cause) ∨ StatusServable d w r := by
  cases henabled : d.enabled with
  | false => exact .inl ⟨_, .disabled henabled⟩
  | true =>
    by_cases hstatus : r.operation = unitStatusOperation
    · obtain ⟨cause, h⟩ | ⟨hlong, hfits⟩ :=
        Page.refusal_or_fits d.unitStatusPage Page.unitStatusHeader r.length w
      · exact .inl ⟨cause, .unserved henabled hstatus h⟩
      · exact .inr ⟨henabled, hstatus, hlong, hfits⟩
    · exact .inl ⟨_, .unsupported henabled hstatus⟩

theorem StatusRefusal.not_servable (h : StatusRefusal d w r cause) : ¬ StatusServable d w r := by
  rintro ⟨hon, hstatus, hlong, hfits⟩
  cases h with
  | disabled hoff => simp [hoff] at hon
  | unsupported _ hother => exact hother hstatus
  | unserved _ _ h => exact h.not_fits ⟨hlong, hfits⟩

/-- IO Management Receive is refused for the first cause that stands in its way. -/
theorem result_readUnitStatus_eq_error_iff :
    (d.readUnitStatus w r).1 = .error cause ↔ StatusRefusal d w r cause := by
  refine ⟨fun h => ?_, fun h => by rw [readUnitStatus_of_refusal h]⟩
  obtain ⟨cause', hrefusal⟩ | hservable := status_refusal_or_servable d w r
  · rw [readUnitStatus_of_refusal hrefusal] at h
    exact Except.error.inj h ▸ hrefusal
  · rw [(readUnitStatus_of_servable hservable).1] at h
    cases h

end Status

/-- Get Log Page moves its whole share of the page or nothing. -/
theorem getLog_cases (d : Device) (w : Window) (dword10 dword11 : Nat) :
    let r := LogRequest.ofDwords dword10 dword11
    let s := d.getLog w dword10 dword11
    (∃ cause, LogRefusal d w r cause ∧ s.result = .refused cause ∧
        s.result.transferred = 0 ∧ s.memory = w) ∨
      ∃ name, LogServable d w r name ∧
        s.result = .done (Page.share (d.logPage name) r.length) ∧
        Page.Delivered (d.logPage name) r.length w s.memory := by
  intro r s
  have hresult : s.result = .ofResult (d.readLog w r).result := rfl
  have hmemory : s.memory = (d.readLog w r).memory := rfl
  obtain ⟨cause, hrefusal⟩ | ⟨name, hservable⟩ := log_refusal_or_servable d w r
  · obtain ⟨hread, hsame⟩ := readLog_of_refusal hrefusal
    have hrefused : s.result = .refused cause := by rw [hresult, hread]; rfl
    exact .inl ⟨cause, hrefusal, hrefused, by rw [hrefused]; rfl, hmemory.trans hsame⟩
  · obtain ⟨hread, hdelivered⟩ := readLog_of_servable hservable
    exact .inr ⟨name, hservable, by rw [hresult, hread]; rfl, hmemory ▸ hdelivered⟩

theorem isOk_getLog_iff (d : Device) (w : Window) (dword10 dword11 : Nat) :
    (d.getLog w dword10 dword11).result.isOk = true ↔
      ∃ name, LogServable d w (.ofDwords dword10 dword11) name := by
  obtain ⟨cause, hrefusal, hresult, -⟩ | ⟨name, hservable, hresult, -⟩ :=
    d.getLog_cases w dword10 dword11
  · have hnone : ¬ ∃ name, LogServable d w (.ofDwords dword10 dword11) name :=
      fun ⟨_, h⟩ => hrefusal.not_servable h
    simp [hresult, hnone]
  · simpa [hresult] using ⟨name, hservable⟩

/-- IO Management Receive moves its whole share of the page or nothing. -/
theorem receiveManagement_cases (d : Device) (w : Window) (dword10 dword11 : Nat) :
    let r := ManagementRequest.ofDwords dword10 dword11
    let s := d.receiveManagement w dword10 dword11
    (∃ cause, StatusRefusal d w r cause ∧ s.1 = .refused cause ∧
        s.1.transferred = 0 ∧ s.2 = w) ∨
      (StatusServable d w r ∧ s.1 = .done (Page.share d.unitStatusPage r.length) ∧
        Page.Delivered d.unitStatusPage r.length w s.2) := by
  intro r s
  have hresult : s.1 = .ofResult (d.readUnitStatus w r).1 := rfl
  have hmemory : s.2 = (d.readUnitStatus w r).2 := rfl
  obtain ⟨cause, hrefusal⟩ | hservable := status_refusal_or_servable d w r
  · have hread := readUnitStatus_of_refusal hrefusal
    have hrefused : s.1 = .refused cause := by rw [hresult, hread]; rfl
    exact .inl ⟨cause, hrefusal, hrefused, by rw [hrefused]; rfl, by rw [hmemory, hread]⟩
  · obtain ⟨hread, hdelivered⟩ := readUnitStatus_of_servable hservable
    exact .inr ⟨hservable, by rw [hresult, hread]; rfl, hmemory ▸ hdelivered⟩

theorem isOk_receiveManagement_iff (d : Device) (w : Window) (dword10 dword11 : Nat) :
    (d.receiveManagement w dword10 dword11).1.isOk = true ↔
      StatusServable d w (.ofDwords dword10 dword11) := by
  obtain ⟨cause, hrefusal, hresult, -⟩ | ⟨hservable, hresult, -⟩ :=
    d.receiveManagement_cases w dword10 dword11
  · simpa [hresult] using hrefusal.not_servable
  · simpa [hresult] using hservable

/-- A command for a page is refused, answers no bytes and leaves the buffer as it was, or it puts
its whole share of the page at the start of the buffer, within the limit, and leaves the rest of
the buffer as it was. It succeeds exactly when nothing stands in its way, and is refused for the
first cause that does. -/
theorem transfers_are_bounded_and_whole (d : Device) (w : Window) (dword10 dword11 : Nat) :
    (let r := LogRequest.ofDwords dword10 dword11
      let s := d.getLog w dword10 dword11
      ((∃ cause, LogRefusal d w r cause ∧ s.result = .refused cause ∧
            s.result.transferred = 0 ∧ s.memory = w) ∨
          ∃ name, LogServable d w r name ∧
            s.result = .done (Page.share (d.logPage name) r.length) ∧
            Page.Delivered (d.logPage name) r.length w s.memory) ∧
        (s.result.isOk = true ↔ ∃ name, LogServable d w r name) ∧
        ∀ cause, (d.readLog w r).result = .error cause ↔ LogRefusal d w r cause) ∧
      let r := ManagementRequest.ofDwords dword10 dword11
      let s := d.receiveManagement w dword10 dword11
      ((∃ cause, StatusRefusal d w r cause ∧ s.1 = .refused cause ∧
            s.1.transferred = 0 ∧ s.2 = w) ∨
          (StatusServable d w r ∧ s.1 = .done (Page.share d.unitStatusPage r.length) ∧
            Page.Delivered d.unitStatusPage r.length w s.2)) ∧
        (s.1.isOk = true ↔ StatusServable d w r) ∧
        ∀ cause, (d.readUnitStatus w r).1 = .error cause ↔ StatusRefusal d w r cause :=
  ⟨⟨d.getLog_cases w dword10 dword11, d.isOk_getLog_iff w dword10 dword11,
      fun _ => result_readLog_eq_error_iff⟩,
    d.receiveManagement_cases w dword10 dword11, d.isOk_receiveManagement_iff w dword10 dword11,
    fun _ => result_readUnitStatus_eq_error_iff⟩

end Device

end DataPlacement
