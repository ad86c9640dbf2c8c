import DataPlacement.Proofs.Host.Memory

namespace DataPlacement.Host

/-! ### Calls -/

/-- A call to host memory. Numbers have `width` bytes. -/
inductive Call where
  | write (offset : Nat) (data : List UInt8)
  | read (offset count : Nat)
  | transfer (payload : List UInt8) (requested : Nat)
  | flush
  | writeNumber (width offset n : Nat)
  | readNumber (width offset : Nat)

/-- What an accepted call answers: the bytes that were read, the number that was read or how many
bytes were moved, or nothing but that it was carried out. -/
inductive Reply where
  | done
  | bytes (data : List UInt8)
  | number (n : Nat)
  deriving DecidableEq

namespace Call

variable {μ : Type} [Memory μ]

/-- Carries out a call. -/
def perform (m : μ) : Call → Except Fault Reply × μ
  | write offset data => (Memory.writeAt m offset data).map (·.map fun _ => .done) id
  | read offset count => (Memory.readAt m offset count).map (·.map .bytes) id
  | transfer payload requested => (Memory.transfer m payload requested).map (·.map .number) id
  | flush => (Memory.flush m).map (·.map fun _ => .done) id
  | writeNumber width offset n => (Memory.writeNumber m width offset n).map (·.map fun _ => .done) id
  | readNumber width offset => (Memory.readNumber m width offset).map (·.map .number) id

/-- What calls answer, one after the other. -/
def replies (m : μ) : List Call → List (Except Fault Reply)
  | [] => []
  | call :: calls => (call.perform m).1 :: replies (call.perform m).2 calls

/-- The memory after calls. -/
def after (m : μ) (calls : List Call) : μ := calls.foldl (fun m call => (call.perform m).2) m

end Call

/-! ### Windows -/

namespace Window

variable {w : Window} {offset : Nat} {data : List UInt8}

theorem drop_overlay {bytes : List UInt8} {limit : Nat} (h : offset + data.length ≤ limit)
    (hlimit : limit ≤ bytes.length) : (overlay bytes offset data).drop limit = bytes.drop limit := by
  have hfront : (bytes.take offset ++ data).length = offset + data.length := by
    rw [List.length_append, List.length_take]
    omega
  have hrest : offset + data.length + (limit - (offset + data.length)) = limit := by omega
  rw [overlay, List.drop_append, List.drop_of_length_le (by omega), hfront, List.nil_append,
    List.drop_drop, hrest]

theorem take_overlay {bytes : List UInt8} {limit : Nat} (h : offset + data.length ≤ limit)
    (hlimit : limit ≤ bytes.length) :
    (overlay bytes offset data).take limit = overlay (bytes.take limit) offset data := by
  have hfront : (bytes.take offset ++ data).length = offset + data.length := by
    rw [List.length_append, List.length_take]
    omega
  have hkept : (bytes.take limit).take offset = bytes.take offset := by
    rw [List.take_take, Nat.min_eq_left (by omega)]
  rw [overlay, overlay, List.take_append, List.take_of_length_le (by omega), hfront, hkept,
    List.drop_take]

/-- Two windows with one limit, and with the same bytes behind it. -/
structure SameBehind (w w' : Window) : Prop where
  limit : w'.limit = w.limit
  length : w'.bytes.length = w.bytes.length
  behind : w'.bytes.drop w.limit = w.bytes.drop w.limit

theorem SameBehind.refl (w : Window) : w.SameBehind w := ⟨rfl, rfl, rfl⟩

theorem SameBehind.trans {w' w'' : Window} (h : w.SameBehind w') (h' : w'.SameBehind w'') :
    w.SameBehind w'' where
  limit := h'.limit.trans h.limit
  length := h'.length.trans h.length
  behind := by
    have hlater := h'.behind
    rw [h.limit] at hlater
    exact hlater.trans h.behind

theorem writeAt_of_ok (h : (w.writeAt offset data).1 = .ok ()) :
    offset + data.length ≤ w.limit ∧ (w.writeAt offset data).2.limit = w.limit ∧
      (w.writeAt offset data).2.bytes = overlay w.bytes offset data := by
  unfold writeAt at h ⊢
  split
  · next hfits => exact ⟨hfits, rfl, rfl⟩
  · next hfits =>
    rw [dif_neg hfits] at h
    cases h

theorem sameBehind_writeAt (w : Window) (offset : Nat) (data : List UInt8) :
    w.SameBehind (w.writeAt offset data).2 := by
  unfold writeAt
  split
  · next hfits =>
    exact ⟨rfl, length_overlay (Nat.le_trans hfits w.limit_le), drop_overlay hfits w.limit_le⟩
  · exact .refl w

theorem readAt_state (w : Window) (offset count : Nat) : (w.readAt offset count).2 = w := by
  unfold readAt
  split <;> rfl

/-- No call touches what is behind the limit, accepted or not. -/
theorem sameBehind_perform (w : Window) (call : Call) : w.SameBehind (call.perform w).2 := by
  cases call with
  | write offset data => exact sameBehind_writeAt w offset data
  | writeNumber width offset n => exact sameBehind_writeAt w offset _
  | read offset count | readNumber count offset =>
    have hstate : (Memory.readAt w offset count).2 = w := readAt_state w offset count
    simp only [Call.perform, Memory.readNumber, Prod.map_snd, id, hstate]
    exact .refl w
  | transfer payload requested =>
    simp only [Call.perform, Memory.transfer]
    split
    · exact .refl w
    · exact sameBehind_writeAt w 0 _
  | flush => exact .refl w

theorem sameBehind_after (w : Window) (calls : List Call) : w.SameBehind (Call.after w calls) := by
  induction calls generalizing w with
  | nil => exact .refl w
  | cons call calls ih => exact (sameBehind_perform w call).trans (ih _)

end Window

/-! ### Stores -/

theorem exists_of_map_eq_ok {α β : Type} {f : α → β} {result : Except Fault α} {b : β}
    (h : result.map f = .ok b) : ∃ a, result = .ok a ∧ f a = b := by
  cases result with
  | error fault => cases h
  | ok a => exact ⟨a, rfl, Except.ok.inj h⟩

/-- The store holds the bytes that the window exposes. No buffer has 2^63 bytes. -/
structure Mirrors (w : Window) (s : Store) : Prop where
  bytes : s.bytes = w.bytes.take w.limit
  limit_lt : w.limit < bitRange 63

namespace Store

variable {s : Store} {offset : Nat} {data : List UInt8}

/-- A write within the bytes of a store that takes it puts them in place, and does not grow it. -/
theorem writeAt_of_inside (hinside : offset + data.length ≤ s.bytes.length)
    (hholds : s.holds (offset + data.length) = true) :
    s.writeAt offset data = (.ok (), { s with bytes := Window.overlay s.bytes offset data }) := by
  have hresize : resize s.bytes offset = s.bytes.take offset := by
    have hgap : offset - s.bytes.length = 0 := by omega
    rw [resize, hgap, List.replicate_zero, List.append_nil]
  rw [writeAt, hholds, hresize, if_neg (by decide)]
  split
  · next hnothing =>
    have hempty : data = [] := by
      rw [Bool.and_eq_true] at hnothing
      exact List.isEmpty_iff.1 hnothing.1
    have hsame : Window.overlay s.bytes offset data = s.bytes := by
      simp [Window.overlay, hempty]
    rw [hsame]
  · rfl

theorem readAt_of_inside {count : Nat} (hinside : offset + count ≤ s.bytes.length)
    (hholds : s.holds (offset + count) = true) :
    s.readAt offset count = (.ok ((s.bytes.drop offset).take count), s) := by
  rw [readAt, hholds, if_neg (by decide), if_pos (.inr hinside)]

end Store

namespace Mirrors

variable {w : Window} {s : Store} {offset count : Nat} {data : List UInt8}

theorem length (h : Mirrors w s) : s.bytes.length = w.limit := by
  rw [h.bytes, List.length_take, Nat.min_eq_left w.limit_le]

theorem holds (h : Mirrors w s) {length : Nat} (hlength : length ≤ w.limit) :
    s.holds length = true :=
  s.holds_of_lt (Nat.lt_of_le_of_lt hlength h.limit_lt)

/-- What the window takes, the store takes. -/
theorem writeAt (h : Mirrors w s) (hok : (Memory.writeAt w offset data).1 = .ok ()) :
    (Memory.writeAt s offset data).1 = .ok () ∧
      Mirrors (Memory.writeAt w offset data).2 (Memory.writeAt s offset data).2 := by
  obtain ⟨hfits, hlimit, hbytes⟩ := Window.writeAt_of_ok hok
  have hinside : offset + data.length ≤ s.bytes.length := by rwa [h.length]
  have hstore := Store.writeAt_of_inside hinside (h.holds hfits)
  change (s.writeAt offset data).1 = _ ∧ Mirrors (w.writeAt offset data).2 (s.writeAt offset data).2
  rw [hstore]
  refine ⟨rfl, ?_, ?_⟩
  · rw [hlimit, hbytes, Window.take_overlay hfits w.limit_le, h.bytes]
  · rw [hlimit]
    exact h.limit_lt

/-- What the window gives, the store gives. -/
theorem readAt (h : Mirrors w s) (hok : (Memory.readAt w offset count).1 = .ok data) :
    (Memory.readAt s offset count).1 = .ok data ∧
      Mirrors (Memory.readAt w offset count).2 (Memory.readAt s offset count).2 := by
  change (w.readAt offset count).1 = _ at hok
  change (s.readAt offset count).1 = _ ∧ Mirrors (w.readAt offset count).2 (s.readAt offset count).2
  rw [Window.readAt_state]
  unfold Window.readAt at hok
  split at hok
  · next hfits =>
    have hinside : offset + count ≤ s.bytes.length := by rwa [h.length]
    have hexposed : (s.bytes.drop offset).take count = (w.bytes.drop offset).take count := by
      rw [h.bytes, List.drop_take, List.take_take, Nat.min_eq_left (by omega)]
    rw [Store.readAt_of_inside hinside (h.holds hfits), hexposed]
    exact ⟨hok, h⟩
  · cases hok

/-- A transfer that the window has room for fits into the store, which grows as far as any. -/
theorem transfer (h : Mirrors w s) {payload : List UInt8} {requested moved : Nat}
    (hok : (Memory.transfer w payload requested).1 = .ok moved) :
    (Memory.transfer s payload requested).1 = .ok moved ∧
      Mirrors (Memory.transfer w payload requested).2 (Memory.transfer s payload requested).2 := by
  unfold Memory.transfer at hok ⊢
  dsimp only at hok ⊢
  by_cases hlong : Memory.capacity w < min payload.length requested
  · rw [if_pos hlong] at hok
    cases hok
  · have hroom : ¬ Memory.capacity s < min payload.length requested := by
      have hlimit : min payload.length requested ≤ w.limit := Nat.le_of_not_lt hlong
      have hcapacity : bitRange 63 ≤ Memory.capacity s := by
        change bitRange 63 ≤ bitRange 64 - 1
        decide
      exact Nat.not_lt.2 (Nat.le_trans hlimit (Nat.le_trans (Nat.le_of_lt h.limit_lt) hcapacity))
    rw [if_neg hlong] at hok ⊢
    rw [if_neg hroom]
    obtain ⟨_, htaken, hmoved⟩ := exists_of_map_eq_ok hok
    obtain ⟨hstore, hmirrors⟩ := h.writeAt htaken
    rw [hstore]
    exact ⟨congrArg Except.ok hmoved, hmirrors⟩

/-- The store answers an accepted call as the window does, and they go on to hold the same bytes. -/
theorem perform (h : Mirrors w s) {call : Call} {reply : Reply}
    (hok : (call.perform w).1 = .ok reply) :
    (call.perform s).1 = .ok reply ∧ Mirrors (call.perform w).2 (call.perform s).2 := by
  cases call with
  | write offset data | writeNumber width offset n =>
    obtain ⟨_, htaken, hreply⟩ := exists_of_map_eq_ok hok
    obtain ⟨hstore, hmirrors⟩ := h.writeAt htaken
    simp only [Call.perform, Memory.writeNumber, Prod.map_fst, Prod.map_snd, id, hstore]
    exact ⟨congrArg Except.ok hreply, hmirrors⟩
  | read offset count =>
    obtain ⟨data, hread, hreply⟩ := exists_of_map_eq_ok hok
    obtain ⟨hstore, hmirrors⟩ := h.readAt hread
    simp only [Call.perform, Prod.map_fst, Prod.map_snd, id, hstore]
    exact ⟨congrArg Except.ok hreply, hmirrors⟩
  | readNumber width offset =>
    obtain ⟨n, hnumber, hreply⟩ := exists_of_map_eq_ok hok
    obtain ⟨data, hread, hn⟩ := exists_of_map_eq_ok hnumber
    obtain ⟨hstore, hmirrors⟩ := h.readAt hread
    simp only [Call.perform, Memory.readNumber, Prod.map_fst, Prod.map_snd, id, hstore]
    exact ⟨congrArg Except.ok (hn ▸ hreply), hmirrors⟩
  | transfer payload requested =>
    obtain ⟨moved, hmoved, hreply⟩ := exists_of_map_eq_ok hok
    obtain ⟨hstore, hmirrors⟩ := h.transfer hmoved
    simp only [Call.perform, Prod.map_fst, Prod.map_snd, id, hstore]
    exact ⟨congrArg Except.ok hreply, hmirrors⟩
  | flush => exact ⟨hok, h⟩

/-- The same holds of calls one after the other. -/
theorem replies (h : Mirrors w s) {calls : List Call}
    (hok : ∀ reply ∈ Call.replies w calls, reply.isOk) :
    Call.replies s calls = Call.replies w calls ∧
      Mirrors (Call.after w calls) (Call.after s calls) := by
  induction calls generalizing w s with
  | nil => exact ⟨rfl, h⟩
  | cons call calls ih =>
    obtain ⟨hfirst, hrest⟩ := List.forall_mem_cons.1 hok
    cases hreply : (call.perform w).1 with
    | error fault =>
      rw [hreply] at hfirst
      cases hfirst
    | ok reply =>
      obtain ⟨hsame, hmirrors⟩ := h.perform hreply
      obtain ⟨hreplies, hlater⟩ := ih hmirrors hrest
      refine ⟨?_, hlater⟩
      rw [Call.replies, Call.replies, hreply, hsame, hreplies]

end Mirrors

theorem mirrors_exposing (bytes : List UInt8) (limit : Nat) (hsize : bytes.length < bitRange 63)
    (kind : StoreKind) : Mirrors (.exposing bytes limit) ⟨kind, bytes.take limit⟩ where
  bytes := List.take_eq_take_min
  limit_lt := Nat.lt_of_le_of_lt (Nat.min_le_right limit bytes.length) hsize

/-- Of a buffer that is exposed up to a limit, no call touches the rest. -/
theorem Window.behind_of_exposing (bytes : List UInt8) (limit : Nat) (calls : List Call) :
    (Call.after (Window.exposing bytes limit) calls).bytes.length = bytes.length ∧
      (Call.after (Window.exposing bytes limit) calls).bytes.drop limit = bytes.drop limit := by
  obtain ⟨-, hlength, hbehind⟩ := Window.sameBehind_after (.exposing bytes limit) calls
  have hbuffer : (Window.exposing bytes limit).bytes = bytes := rfl
  have hexposed : (Window.exposing bytes limit).limit = min limit bytes.length := rfl
  rw [hbuffer] at hlength hbehind
  refine ⟨hlength, ?_⟩
  by_cases hinside : limit ≤ bytes.length
  · rwa [hexposed, Nat.min_eq_left hinside] at hbehind
  · rw [List.drop_of_length_le (by omega), List.drop_of_length_le (by omega)]

/-- Whatever is called on a window on the first bytes of a buffer, the rest of the buffer stays as
it is. If the window accepts all of the calls, a store that holds the exposed bytes at first accepts
them too, with the same answers, and has exactly the exposed bytes of the buffer at the end. This
holds of a store in memory and of a file, and also of accesses to no bytes at the very end. A buffer
has fewer than 2^63 bytes. -/
theorem store_follows_window {bytes : List UInt8} (hsize : bytes.length < bitRange 63)
    (limit : Nat) (kind : StoreKind) (calls : List Call) :
    let w := Window.exposing bytes limit
    let s : Store := ⟨kind, bytes.take limit⟩
    ((Call.after w calls).bytes.length = bytes.length ∧
      (Call.after w calls).bytes.drop limit = bytes.drop limit) ∧
    ((∀ reply ∈ Call.replies w calls, reply.isOk) →
      Call.replies s calls = Call.replies w calls ∧
        (Call.after s calls).bytes = (Call.after w calls).bytes.take limit) := by
  intro w s
  refine ⟨Window.behind_of_exposing bytes limit calls, fun hok => ?_⟩
  obtain ⟨hreplies, hmirrors⟩ := (mirrors_exposing bytes limit hsize kind).replies hok
  refine ⟨hreplies, ?_⟩
  obtain ⟨hlimit, hlength, -⟩ := Window.sameBehind_after w calls
  have hexposed : w.limit = min limit bytes.length := rfl
  have hbuffer : w.bytes.length = bytes.length := rfl
  rw [hmirrors.bytes, hlimit, hexposed, ← hbuffer, ← hlength]
  exact List.take_eq_take_min.symm

/-- Numbers, a transfer that is cut short and an empty write at the very end, on four of six bytes
and on a file. -/
theorem store_follows_window_of_numbers :
    let bytes : List UInt8 := [1, 2, 3, 4, 5, 6]
    let calls : List Call := [.writeNumber 2 2 0xa0b0, .readNumber 4 0, .transfer [7, 8, 9] 2,
      .write 4 [], .read 4 0, .flush, .read 0 4]
    let w := Window.exposing bytes 4
    let s : Store := ⟨.file, bytes.take 4⟩
    bytes.length < bitRange 63 ∧ (∀ reply ∈ Call.replies w calls, reply.isOk) ∧
      Call.replies s calls = Call.replies w calls ∧
      (Call.after w calls).bytes = [7, 8, 0xb0, 0xa0, 5, 6] ∧
      (Call.after s calls).bytes = (Call.after w calls).bytes.take 4 := by
  intro bytes calls w s
  have hsize : bytes.length < bitRange 63 := by decide
  have hok : ∀ reply ∈ Call.replies w calls, reply.isOk := by decide
  obtain ⟨-, hfollows⟩ := store_follows_window hsize 4 .file calls
  obtain ⟨hreplies, hbytes⟩ := hfollows hok
  exact ⟨hsize, hok, hreplies, by decide, hbytes⟩

end DataPlacement.Host
