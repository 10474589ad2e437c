import Microcode.Rendering.Sink

namespace Microcode

/-!
Renderings written to a place that takes only so many octets.

A piece is written by calls that offer what is left of it, and a call may take any part of this
for which there is room.  Neither the division of a rendering into pieces nor what single calls
take has an influence on the outcome: pieces written one after the other are the same as all of
them written at once.
-/

namespace Sink

/-- The sink behind further octets. -/
def after (sink : Sink) (octets : Bytes) : Sink :=
  { sink with taken := sink.taken ++ octets }

/-- Calls that offer octets until all are taken.  A call takes some of what is left, at most as
much as there is room for, and it is refused where there is no room. -/
inductive Calls : Sink → Bytes → Except SinkFull Sink → Prop where
  | done (sink : Sink) : Calls sink [] (.ok sink)
  | taken {sink : Sink} {part rest : Bytes} {outcome : Except SinkFull Sink} (nonempty : part ≠ [])
      (fits : part.length ≤ sink.room) (behind : Calls (sink.after part) rest outcome) :
      Calls sink (part ++ rest) outcome
  | refused {sink : Sink} {octets : Bytes} (left : octets ≠ []) (full : sink.room = 0) :
      Calls sink octets (.error ⟨sink.taken, sink.refusal⟩)

/-- What a sink has taken in the end. -/
def accepted : Except SinkFull Sink → Bytes
  | .ok sink => sink.taken.toList
  | .error full => full.taken.toList

theorem toList_after (sink : Sink) (octets : Bytes) :
    (sink.after octets).taken.toList = sink.taken.toList ++ octets :=
  Array.toList_appendList

theorem ext_toList {left right : Sink} (limits : left.limit = right.limit)
    (refusals : left.refusal = right.refusal)
    (texts : left.taken.toList = right.taken.toList) : left = right := by
  cases left
  cases right
  cases limits
  cases refusals
  cases Array.toList_inj.mp texts
  rfl

theorem after_nil (sink : Sink) : sink.after [] = sink := by
  refine ext_toList rfl rfl ?_
  rw [toList_after, List.append_nil]

theorem after_append (sink : Sink) (first second : Bytes) :
    sink.after (first ++ second) = (sink.after first).after second := by
  refine ext_toList rfl rfl ?_
  rw [toList_after, toList_after, toList_after, List.append_assoc]

theorem room_after (sink : Sink) (octets : Bytes) :
    (sink.after octets).room = sink.room - octets.length := by
  rw [room, ← Array.length_toList, toList_after, List.length_append, ← Nat.sub_sub,
    Array.length_toList]
  rfl

theorem write_of_fits {sink : Sink} {octets : Bytes} (fits : octets.length ≤ sink.room) :
    sink.write octets = .ok (sink.after octets) :=
  if_pos fits

theorem write_of_lt {sink : Sink} {octets : Bytes} (short : sink.room < octets.length) :
    sink.write octets = .error ⟨(sink.after (octets.take sink.room)).taken, sink.refusal⟩ :=
  if_neg (Nat.not_le.mpr short)

theorem write_nil (sink : Sink) : sink.write [] = .ok sink := by
  rw [write_of_fits (Nat.zero_le _), after_nil]

/-- Octets can be written in two parts. -/
theorem write_append (sink : Sink) (first second : Bytes) :
    sink.write (first ++ second) = sink.write first >>= (·.write second) := by
  by_cases fits : first.length ≤ sink.room
  · rw [write_of_fits fits]
    change _ = (sink.after first).write second
    have room := sink.room_after first
    by_cases both : (first ++ second).length ≤ sink.room
    · have later : second.length ≤ (sink.after first).room := by
        rw [List.length_append] at both
        omega
      rw [write_of_fits both, write_of_fits later, after_append]
    · have short := Nat.lt_of_not_le both
      have later : (sink.after first).room < second.length := by
        rw [List.length_append] at short
        omega
      rw [write_of_lt short, write_of_lt later, List.take_append, List.take_of_length_le fits,
        after_append, room]
      rfl
  · have short := Nat.lt_of_not_le fits
    have both : sink.room < (first ++ second).length := by
      rw [List.length_append]
      omega
    rw [write_of_lt short, write_of_lt both, List.take_append_of_le_length (Nat.le_of_lt short)]
    rfl

/-- Pieces written one after the other are the same as all of them written at once. -/
theorem writeAll_eq_write (sink : Sink) (pieces : List Bytes) :
    sink.writeAll pieces = sink.write pieces.flatten := by
  induction pieces generalizing sink with
  | nil => exact (write_nil sink).symm
  | cons piece pieces ih =>
      rw [List.flatten_cons, write_append, writeAll, List.foldlM_cons]
      exact bind_congr ih

/-! ## Calls -/

theorem write_of_calls {sink : Sink} {octets : Bytes} {outcome : Except SinkFull Sink}
    (calls : Calls sink octets outcome) : sink.write octets = outcome := by
  induction calls with
  | done sink => exact write_nil sink
  | taken nonempty fits behind ih =>
      rw [write_append, write_of_fits fits]
      exact ih
  | refused left full =>
      rw [write_of_lt (full ▸ List.length_pos_iff.mpr left), full, List.take_zero, after_nil]

/-- The first call may take all that there is room for. -/
theorem exists_calls (sink : Sink) (octets : Bytes) : ∃ outcome, Calls sink octets outcome := by
  by_cases empty : octets = []
  · rw [empty]
    exact ⟨_, .done sink⟩
  by_cases full : sink.room = 0
  · exact ⟨_, .refused empty full⟩
  have nonempty : octets.take sink.room ≠ [] := by
    rw [Ne, List.take_eq_nil_iff]
    exact not_or.mpr ⟨full, empty⟩
  have fits : (octets.take sink.room).length ≤ sink.room := List.length_take_le _ _
  have behind : ∃ outcome, Calls (sink.after (octets.take sink.room)) (octets.drop sink.room)
      outcome := by
    by_cases all : octets.drop sink.room = []
    · rw [all]
      exact ⟨_, .done _⟩
    · have left : 0 < (octets.drop sink.room).length := List.length_pos_iff.mpr all
      refine ⟨_, .refused all ?_⟩
      rw [List.length_drop] at left
      rw [room_after, List.length_take]
      omega
  rcases behind with ⟨outcome, calls⟩
  refine ⟨outcome, ?_⟩
  rw [← List.take_append_drop sink.room octets]
  exact .taken nonempty fits calls

/-- Whatever single calls take, they come to one outcome. -/
theorem calls_iff {sink : Sink} {octets : Bytes} {outcome : Except SinkFull Sink} :
    Calls sink octets outcome ↔ outcome = sink.write octets := by
  constructor
  · exact fun calls => (write_of_calls calls).symm
  · rintro rfl
    rcases exists_calls sink octets with ⟨outcome, calls⟩
    rwa [write_of_calls calls]

/-! ## Fresh sinks -/

section Fresh

variable {limit : Nat} {refusal : String} {pieces : List Bytes}

theorem writeAll_of_length_le (fits : pieces.flatten.length ≤ limit) :
    writeAll { limit, refusal } pieces =
      .ok { limit, refusal, taken := pieces.flatten.toArray } := by
  have within : pieces.flatten.length ≤ ({ limit, refusal } : Sink).room := fits
  rw [writeAll_eq_write, write_of_fits within]
  apply congrArg Except.ok
  refine ext_toList rfl rfl ?_
  exact toList_after _ _

theorem writeAll_of_lt_length (short : limit < pieces.flatten.length) :
    writeAll { limit, refusal } pieces =
      .error ⟨(pieces.flatten.take limit).toArray, refusal⟩ := by
  have beyond : ({ limit, refusal } : Sink).room < pieces.flatten.length := short
  rw [writeAll_eq_write, write_of_lt beyond]
  apply congrArg fun taken => Except.error (SinkFull.mk taken refusal)
  apply Array.toList_inj.mp
  exact toList_after _ _

end Fresh

end Sink

namespace Rendering

/-- A sink takes the beginning of a rendering, up to its limit.  The rendering is written when
its length is within the limit, and otherwise the outcome is what the sink says when it refuses
octets.  This does not depend on the pieces in which the rendering is written, nor on what single
calls take. -/
theorem written_up_to_limit (format : Format) (width : Width) (words : List Word) (limit : Nat)
    (refusal : String) :
    Sink.accepted (Sink.writeAll { limit, refusal } (pieces format width words)) =
      (render format width words).take (min limit (render format width words).length) ∧
    ((Sink.writeAll { limit, refusal } (pieces format width words)).isOk ↔
      (render format width words).length ≤ limit) ∧
    (limit < (render format width words).length →
      Sink.writeAll { limit, refusal } (pieces format width words) =
        .error ⟨((render format width words).take limit).toArray, refusal⟩) ∧
    (∀ others : List Bytes, others.flatten = render format width words →
      Sink.writeAll { limit, refusal } others =
        Sink.writeAll { limit, refusal } (pieces format width words)) ∧
    (∀ outcome, Sink.Calls { limit, refusal } (render format width words) outcome ↔
      outcome = Sink.writeAll { limit, refusal } (pieces format width words)) := by
  have whole : (pieces format width words).flatten = render format width words := rfl
  refine ⟨?_, ?_, ?_, ?_, ?_⟩
  · rw [← List.take_eq_take_min]
    by_cases fits : (render format width words).length ≤ limit
    · rw [Sink.writeAll_of_length_le fits, whole, List.take_of_length_le fits]
      rfl
    · rw [Sink.writeAll_of_lt_length (Nat.lt_of_not_le fits)]
      rfl
  · by_cases fits : (render format width words).length ≤ limit
    · rw [Sink.writeAll_of_length_le fits]
      exact iff_of_true rfl fits
    · rw [Sink.writeAll_of_lt_length (Nat.lt_of_not_le fits)]
      exact iff_of_false Bool.false_ne_true fits
  · exact Sink.writeAll_of_lt_length
  · intro others same
    rw [Sink.writeAll_eq_write, Sink.writeAll_eq_write, same, whole]
  · intro outcome
    rw [Sink.calls_iff, Sink.writeAll_eq_write, whole]

/-- A word with all its bits set, on a single row of sixty octets as text. -/
def filledWord : Word where
  address := 0xB6
  bits := .replicate wordBits true

theorem written_up_to_limit_filledWord :
    (59 < (render .text .meaningful [filledWord]).length ∧
      Sink.writeAll { limit := 59, refusal := "no space" }
          (pieces .text .meaningful [filledWord]) =
        .error ⟨((render .text .meaningful [filledWord]).take 59).toArray, "no space"⟩) ∧
    (Sink.writeAll { limit := 60 } (pieces .text .meaningful [filledWord])).isOk ∧
    ((render .json .full [filledWord]).map ([·])).flatten = render .json .full [filledWord] ∧
    Sink.accepted
        (Sink.writeAll { limit := 5 } ((render .json .full [filledWord]).map ([·]))) =
      Utf8.encode "[\n  \x7b" := by
  have length : (render .text .meaningful [filledWord]).length = 60 := by decide +kernel
  have short : 59 < (render .text .meaningful [filledWord]).length := by
    rw [length]
    decide
  have octets : ((render .json .full [filledWord]).map ([·])).flatten =
      render .json .full [filledWord] := by
    decide +kernel
  rcases written_up_to_limit .text .meaningful [filledWord] 59 "no space" with ⟨-, -, refused, -, -⟩
  rcases written_up_to_limit .text .meaningful [filledWord] 60 "writer full" with ⟨-, succeeds, -, -, -⟩
  rcases written_up_to_limit .json .full [filledWord] 5 "writer full" with ⟨taken, -, -, divided, -⟩
  refine ⟨⟨short, refused short⟩, succeeds.mpr (Nat.le_of_eq length), octets, ?_⟩
  rw [divided _ octets, taken]
  decide +kernel

end Rendering

end Microcode
