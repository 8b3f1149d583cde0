import BraceTemplate.Proofs.ChunkOutput

namespace BraceTemplate

/-- The error with which an answer ends the writing. An interrupted call is made again. -/
def WriteAnswer.fatal? : WriteAnswer → Option IoError
  | accept 0 => some ByteWriter.nothingTaken
  | accept (_ + 1) => none
  | fail error => if error.kind = .interrupted then none else some error

theorem WriteAnswer.fatal?_accept {count : Nat} (h : count ≠ 0) : (accept count).fatal? = none := by
  cases count with
  | zero => exact absurd rfl h
  | succ count => rfl

structure WriteCall where
  offered : List UInt8
  answer : WriteAnswer

def WriteCall.taken (call : WriteCall) : List UInt8 :=
  match call.answer with
  | .accept count => call.offered.take count
  | .fail _ => []

theorem WriteCall.taken_of_fatal {call : WriteCall} {error : IoError}
    (h : call.answer.fatal? = some error) :
    call.taken = [] := by
  obtain ⟨offered, answer⟩ := call
  cases answer with
  | fail => rfl
  | accept count =>
    cases count with
    | zero => rfl
    | succ count => cases h

/-- A writer before and after some calls, which it answers in turn. -/
inductive ByteWriter.Calls : ByteWriter → List WriteCall → ByteWriter → Prop
  | nil (w : ByteWriter) : Calls w [] w
  | answer {later : List WriteAnswer} {delivered : List UInt8} {calls : List WriteCall}
      {after : ByteWriter} (call : WriteCall)
      (rest : Calls ⟨later, delivered ++ call.taken⟩ calls after) :
      Calls ⟨call.answer :: later, delivered⟩ (call :: calls) after
  | all {delivered offered : List UInt8} {calls : List WriteCall} {after : ByteWriter}
      (rest : Calls ⟨[], delivered ++ offered⟩ calls after) :
      Calls ⟨[], delivered⟩ (⟨offered, .accept offered.length⟩ :: calls) after

namespace ByteWriter.Calls

variable {w v u : ByteWriter} {calls more : List WriteCall}

theorem idle {later : List WriteAnswer} {delivered : List UInt8} (call : WriteCall)
    (h : call.taken = []) (rest : Calls ⟨later, delivered⟩ calls v) :
    Calls ⟨call.answer :: later, delivered⟩ (call :: calls) v := by
  refine .answer call ?_
  rwa [h, List.append_nil]

theorem append (h : Calls w calls v) (hmore : Calls v more u) : Calls w (calls ++ more) u := by
  induction h with
  | nil => exact hmore
  | answer call _ ih => exact .answer call (ih hmore)
  | all _ ih => exact .all (ih hmore)

/-- A writer has what was there before and what the calls took. -/
theorem delivered_eq (h : Calls w calls v) :
    v.delivered = w.delivered ++ calls.flatMap WriteCall.taken := by
  induction h with
  | nil => simp
  | answer call _ ih => rw [ih, List.flatMap_cons, List.append_assoc]
  | all _ ih =>
    rw [ih, List.flatMap_cons, List.append_assoc]
    simp [WriteCall.taken]

end ByteWriter.Calls

/-- Calls that bring bytes to a writer, up to the first fatal answer. Each offers some of the bytes
that are left, from the front. -/
inductive Delivery : List UInt8 → List WriteCall → Option IoError → Prop
  | done : Delivery [] [] none
  | call {rest : List UInt8} {calls : List WriteCall} {stop : Option IoError} (call : WriteCall)
      (benign : call.answer.fatal? = none) (nonempty : call.offered ≠ [])
      (front : call.offered <+: call.taken ++ rest) (later : Delivery rest calls stop) :
      Delivery (call.taken ++ rest) (call :: calls) stop
  | stopped {bytes : List UInt8} {error : IoError} (call : WriteCall)
      (fatal : call.answer.fatal? = some error) (nonempty : call.offered ≠ [])
      (front : call.offered <+: bytes) : Delivery bytes [call] (some error)

namespace Delivery

variable {bytes rest : List UInt8} {calls more : List WriteCall} {stop : Option IoError}
  {error : IoError}

/-- A benign call goes on in the same way where more bytes are to come. -/
theorem call_append (call : WriteCall) (benign : call.answer.fatal? = none)
    (nonempty : call.offered ≠ []) (front : call.offered <+: call.taken ++ bytes)
    (later : Delivery (bytes ++ rest) calls stop) :
    Delivery (call.taken ++ bytes ++ rest) (call :: calls) stop := by
  rw [List.append_assoc]
  refine .call call benign nonempty ?_ later
  rw [← List.append_assoc]
  exact front.trans (List.prefix_append _ _)

theorem append (h : Delivery bytes calls none) (hmore : Delivery rest more stop) :
    Delivery (bytes ++ rest) (calls ++ more) stop := by
  generalize hs : none = s at h
  induction h with
  | done => exact hmore
  | call c benign hne front _ ih => exact call_append c benign hne front (ih hs)
  | stopped => cases hs

/-- What would have come later does not matter to calls that have been stopped. -/
theorem extend (h : Delivery bytes calls (some error)) (later : List UInt8) :
    Delivery (bytes ++ later) calls (some error) := by
  generalize hs : some error = s at h
  induction h with
  | done => cases hs
  | call c benign hne front _ ih => exact call_append c benign hne front (ih hs)
  | stopped c fatal hne front =>
    exact .stopped c fatal hne (front.trans (List.prefix_append _ _))

/-- No call is made for nothing, and each offers the bytes that come next. -/
theorem offers_next (h : Delivery bytes calls stop) {earlier later : List WriteCall}
    {call : WriteCall} (hcalls : calls = earlier ++ call :: later) :
    call.offered ≠ [] ∧ earlier.flatMap WriteCall.taken ++ call.offered <+: bytes := by
  induction h generalizing earlier with
  | done => simp at hcalls
  | call c benign hne front _ ih =>
    cases earlier with
    | nil =>
      obtain ⟨rfl, -⟩ := List.cons.inj hcalls
      exact ⟨hne, front⟩
    | cons first earlier =>
      obtain ⟨rfl, htail⟩ := List.cons.inj hcalls
      obtain ⟨hoffered, hnext⟩ := ih htail
      rw [List.flatMap_cons, List.append_assoc]
      exact ⟨hoffered, (List.prefix_append_right_inj _).mpr hnext⟩
  | stopped c fatal hne front =>
    cases earlier with
    | nil =>
      obtain ⟨rfl, -⟩ := List.cons.inj hcalls
      exact ⟨hne, front⟩
    | cons first earlier => simp at hcalls

/-- Where no answer is fatal, all bytes are brought. -/
theorem complete (h : Delivery bytes calls stop) (hs : stop = none) :
    calls.flatMap WriteCall.taken = bytes ∧ ∀ call ∈ calls, call.answer.fatal? = none := by
  induction h with
  | done => simp
  | call c benign _ _ _ ih =>
    obtain ⟨htaken, hbenign⟩ := ih hs
    rw [List.flatMap_cons, htaken]
    exact ⟨rfl, List.forall_mem_cons.mpr ⟨benign, hbenign⟩⟩
  | stopped => cases hs

/-- The last call is the one with the fatal answer, and what it was offered is missing. -/
theorem cut (h : Delivery bytes calls (some error)) :
    (∃ earlier last, calls = earlier ++ [last] ∧ (∀ call ∈ earlier, call.answer.fatal? = none) ∧
      last.answer.fatal? = some error) ∧
    calls.flatMap WriteCall.taken <+: bytes ∧ calls.flatMap WriteCall.taken ≠ bytes := by
  generalize hs : some error = s at h
  induction h with
  | done => cases hs
  | call c benign _ _ _ ih =>
    obtain ⟨⟨earlier, last, rfl, hbenign, hlast⟩, hfront, hmissing⟩ := ih hs
    rw [List.flatMap_cons]
    refine ⟨⟨c :: earlier, last, rfl, List.forall_mem_cons.mpr ⟨benign, hbenign⟩, hlast⟩,
      (List.prefix_append_right_inj _).mpr hfront, ?_⟩
    intro heq
    exact hmissing (List.append_cancel_left heq)
  | @stopped bytes error' c fatal hne front =>
    obtain rfl := Option.some.inj hs
    have htaken : [c].flatMap WriteCall.taken = [] := by
      rw [List.flatMap_singleton, WriteCall.taken_of_fatal fatal]
    rw [htaken]
    refine ⟨⟨[], c, rfl, by simp, fatal⟩, List.nil_prefix, ?_⟩
    rintro rfl
    exact hne (List.prefix_nil.mp front)

end Delivery

namespace ByteWriter

/-- A writer that is to take some bytes is called until it has them or gives a fatal answer. -/
theorem writeAll_delivery (answers : List WriteAnswer) (delivered bytes : List UInt8) :
    ∃ calls stop, Calls ⟨answers, delivered⟩ calls (writeAll answers delivered bytes).2 ∧
      Delivery bytes calls stop ∧
      (writeAll answers delivered bytes).1 = stop.elim (.ok ()) .error := by
  fun_induction writeAll answers delivered bytes with
  | case1 answers delivered bytes hempty =>
    obtain rfl := List.isEmpty_iff.mp hempty
    exact ⟨[], none, .nil _, .done, rfl⟩
  | case2 delivered bytes hne =>
    rw [List.isEmpty_iff] at hne
    have hbenign : (WriteAnswer.accept bytes.length).fatal? = none :=
      WriteAnswer.fatal?_accept (mt List.length_eq_zero_iff.mp hne)
    have hdelivery := Delivery.call ⟨bytes, .accept bytes.length⟩ hbenign hne
      (by simp [WriteCall.taken]) .done
    simp only [WriteCall.taken, List.take_length, List.append_nil] at hdelivery
    exact ⟨_, none, .all (.nil _), hdelivery, rfl⟩
  | case3 delivered bytes hne later =>
    rw [List.isEmpty_iff] at hne
    exact ⟨_, some nothingTaken, .idle ⟨bytes, .accept 0⟩ rfl (.nil _),
      .stopped _ rfl hne List.prefix_rfl, rfl⟩
  | case4 delivered bytes hne count later hcount ih =>
    rw [List.isEmpty_iff] at hne
    obtain ⟨calls, stop, hcalls, hdelivery, hresult⟩ := ih
    have hcall := Delivery.call ⟨bytes, .accept count⟩ (WriteAnswer.fatal?_accept hcount) hne
      (by simp [WriteCall.taken]) hdelivery
    simp only [WriteCall.taken, List.take_append_drop] at hcall
    exact ⟨_, stop, .answer ⟨bytes, .accept count⟩ hcalls, hcall, hresult⟩
  | case5 delivered bytes hne error later hkind ih =>
    rw [List.isEmpty_iff] at hne
    obtain ⟨calls, stop, hcalls, hdelivery, hresult⟩ := ih
    have hbenign : (WriteAnswer.fail error).fatal? = none := by simp [WriteAnswer.fatal?, hkind]
    exact ⟨_, stop, .idle ⟨bytes, .fail error⟩ rfl hcalls,
      .call ⟨bytes, .fail error⟩ hbenign hne List.prefix_rfl hdelivery, hresult⟩
  | case6 delivered bytes hne error later hkind =>
    rw [List.isEmpty_iff] at hne
    have hfatal : (WriteAnswer.fail error).fatal? = some error := by
      simp [WriteAnswer.fatal?, hkind]
    exact ⟨_, some error, .idle ⟨bytes, .fail error⟩ rfl (.nil _),
      .stopped _ hfatal hne List.prefix_rfl, rfl⟩

end ByteWriter

namespace ByteOutlet

/-- Chunks are delivered as their bytes in one row. Behind a refusal stands the fatal answer. -/
theorem offerAll_delivery (chunks : List String) (o : ByteOutlet) :
    ∃ calls stop, o.writer.Calls calls (sink.offerAll chunks o).2.writer ∧
      Delivery (Text.utf8 (String.join chunks)) calls stop ∧
      match stop with
      | none => (sink.offerAll chunks o).1 = .ok ()
      | some error => (sink.offerAll chunks o).1 = .error .write ∧
          (sink.offerAll chunks o).2.refusal = some error := by
  induction chunks generalizing o with
  | nil => exact ⟨[], none, .nil _, .done, rfl⟩
  | cons chunk chunks ih =>
    obtain ⟨calls, stop, hcalls, hdelivery, hresult⟩ :=
      ByteWriter.writeAll_delivery o.writer.answers o.writer.delivered (Text.utf8 chunk)
    rw [String.join_cons, Text.utf8_append]
    generalize hwrite :
      ByteWriter.writeAll o.writer.answers o.writer.delivered (Text.utf8 chunk) = written
      at hcalls hresult
    obtain ⟨result, after⟩ := written
    cases stop with
    | some error =>
      obtain rfl : result = .error error := hresult
      have hoffer : sink.offer o chunk = (.error .write, ⟨after, some error⟩) := by
        simp [sink, offer, hwrite]
      refine ⟨calls, some error, ?_, hdelivery.extend _, ?_⟩
      · simpa [Sink.offerAll, hoffer] using hcalls
      · simp [Sink.offerAll, hoffer]
    | none =>
      obtain rfl : result = .ok () := hresult
      have hoffer : sink.offer o chunk = (.ok (), { o with writer := after }) := by
        simp [sink, offer, hwrite]
      obtain ⟨more, stop, hmore, hlater, hend⟩ := ih { o with writer := after }
      refine ⟨calls ++ more, stop, ?_, hdelivery.append hlater, ?_⟩
      · simpa [Sink.offerAll, hoffer] using hcalls.append hmore
      · simpa [Sink.offerAll, hoffer] using hend

end ByteOutlet

/-- A template is written into a byte writer call by call, each call offering the bytes of the
rendered text that come next. If no answer is fatal the whole text is delivered; else the writing
ends with the first fatal answer, and with its error, while bytes of the text are still missing. -/
theorem Template.writeTo_delivers (t : Template) (data : Json.Value) (w : ByteWriter) :
    ∃ text, t.render data = .ok text ∧ ∃ calls,
      let result := (t.writeTo data w).1
      let after := (t.writeTo data w).2
      let taken := calls.flatMap WriteCall.taken
      w.Calls calls after ∧ after.delivered = w.delivered ++ taken ∧
      (∀ earlier call later, calls = earlier ++ call :: later →
        call.offered ≠ [] ∧ earlier.flatMap WriteCall.taken ++ call.offered <+: Text.utf8 text) ∧
      (result = .ok () ↔ ∀ call ∈ calls, call.answer.fatal? = none) ∧
      (result = .ok () → taken = Text.utf8 text) ∧
      (result ≠ .ok () → taken <+: Text.utf8 text ∧ taken ≠ Text.utf8 text ∧
        ∃ earlier last error, calls = earlier ++ [last] ∧
          (∀ call ∈ earlier, call.answer.fatal? = none) ∧
          last.answer.fatal? = some error ∧ result = .error (.io error)) := by
  refine ⟨_, t.render_eq data, ?_⟩
  obtain ⟨calls, stop, hcalls, hdelivery, hend⟩ :=
    ByteOutlet.offerAll_delivery (t.root.chunks (t.context data)) ⟨w, none⟩
  have hrender := t.renderTo_eq ByteOutlet.sink data ⟨w, none⟩
  generalize String.join (t.root.chunks (t.context data)) = text at hdelivery ⊢
  generalize ByteOutlet.sink.offerAll (t.root.chunks (t.context data)) ⟨w, none⟩ = rendered
    at hcalls hend hrender
  obtain ⟨result, o⟩ := rendered
  refine ⟨calls, ?_⟩
  cases stop with
  | none =>
    obtain rfl : result = .ok () := hend
    have hwrite : t.writeTo data w = (.ok (), o.writer) := by rw [writeTo, hrender]
    obtain ⟨htaken, hbenign⟩ := hdelivery.complete rfl
    rw [hwrite]
    exact ⟨hcalls, hcalls.delivered_eq, fun _ _ _ => hdelivery.offers_next, by simpa using hbenign,
      fun _ => htaken, fun h => absurd rfl h⟩
  | some error =>
    obtain ⟨rfl, hrefusal⟩ : result = .error .write ∧ o.refusal = some error := hend
    have hwrite : t.writeTo data w = (.error (.io error), o.writer) := by
      rw [writeTo, hrender]
      simp only [hrefusal, Option.elim]
    obtain ⟨⟨earlier, last, hlast, hbenign, hfatal⟩, hfront, hmissing⟩ := hdelivery.cut
    rw [hwrite]
    refine ⟨hcalls, hcalls.delivered_eq, fun _ _ _ => hdelivery.offers_next, ?_, by simp, ?_⟩
    · constructor
      · intro h
        cases h
      · intro h
        have hnone := h last (by simp [hlast])
        rw [hfatal] at hnone
        cases hnone
    · exact fun _ => ⟨hfront, hmissing, earlier, last, error, hlast, hbenign, hfatal, rfl⟩

/-- A fatal answer may come between two bytes of a character. -/
example :
    Template.writeTo ⟨.text "é!", .default⟩ .null
      ⟨[.fail ⟨.interrupted, ""⟩, .accept 1, .accept 0, .accept 9], []⟩ =
      (.error (.io ByteWriter.nothingTaken), ⟨[.accept 9], [0xC3]⟩) := by
  cbv

end BraceTemplate
