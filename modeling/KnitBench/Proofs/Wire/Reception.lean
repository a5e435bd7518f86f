import Mathlib.Data.List.DropRight
import KnitBench.Proofs.Wire.Delivery

/-! A receiver finds its place in a stream at every delimiter. Whatever it has been fed before, each
of the frames that follow yields its message at its own closing delimiter; of a message too long to
be held, the front is yielded. -/

namespace KnitBench.Wire

/-- The front of a message, as much of it as goes into `n` stuffed bytes. -/
def front : Nat → List UInt8 → List UInt8
  | _, [] => []
  | n, b :: m =>
    if (stuffByte b).length ≤ n then b :: front (n - (stuffByte b).length) m else []

theorem prefix_front (n : Nat) (m : List UInt8) : front n m <+: m := by
  induction m generalizing n with
  | nil => exact List.prefix_rfl
  | cons b m ih =>
    rw [front]
    split
    · exact (List.prefix_cons_inj b).mpr (ih _)
    · exact List.nil_prefix

theorem length_stuff_front_le (n : Nat) (m : List UInt8) : (stuff (front n m)).length ≤ n := by
  induction m generalizing n with
  | nil => exact Nat.zero_le n
  | cons b m ih =>
    rw [front]
    split
    · have hrest := ih (n - (stuffByte b).length)
      rw [stuff_cons, List.length_append]
      omega
    · exact Nat.zero_le n

theorem front_of_length_le {n : Nat} {m : List UInt8} (h : (stuff m).length ≤ n) :
    front n m = m := by
  induction m generalizing n with
  | nil => rfl
  | cons b m ih =>
    rw [stuff_cons, List.length_append] at h
    rw [front, if_pos (by omega), ih (by omega)]

/-- Where a message is cut, no more than the first byte of a pair could still go in. -/
theorem le_length_stuff_front {n : Nat} {m : List UInt8} (h : n < (stuff m).length) :
    n ≤ (stuff (front n m)).length + 1 := by
  induction m generalizing n with
  | nil => cases h
  | cons b m ih =>
    rw [stuff_cons, List.length_append] at h
    rw [front]
    split
    · have hrest := ih (n := n - (stuffByte b).length) (by omega)
      rw [stuff_cons, List.length_append]
      omega
    · have hb := length_stuffByte_le b
      omega

/-- Of a message that is too long, at least half as many bytes are left as there is room for. -/
theorem front_of_lt_length {n : Nat} {m : List UInt8} (h : n < (stuff m).length) :
    front n m ≠ m ∧ n ≤ 2 * (front n m).length + 1 := by
  refine ⟨fun he => ?_, ?_⟩
  · have hle := length_stuff_front_le n m
    rw [he] at hle
    omega
  · have hn := le_length_stuff_front h
    have hl := length_stuff_le (front n m)
    omega

/-- A stuffed form that is cut off, be it inside a pair, is read as the front of its message. -/
theorem unstuff_take_stuff (n : Nat) (m : List UInt8) : unstuff ((stuff m).take n) = front n m := by
  induction m generalizing n with
  | nil => simp [unstuff, front]
  | cons b m ih =>
    rw [stuff_cons, front]
    split
    · rename_i hb
      rw [List.take_append, List.take_of_length_le hb, unstuff_stuffByte_append, ih]
    · rename_i hb
      rw [List.take_append_of_le_length (by omega)]
      -- Only the first byte of a pair can be left over, and it is an escape.
      obtain _ | _ | n := n
      · rfl
      · unfold stuffByte at hb ⊢
        split
        · rfl
        · split
          · rfl
          · simp_all
      · have := length_stuffByte_le b
        omega

namespace Framer

variable {tail bytes : List UInt8}

/-- What a receiver yields at each byte. -/
def yields : Framer → List UInt8 → List (Option (List UInt8))
  | _, [] => []
  | f, b :: rest => (f.push b).1 :: yields (f.push b).2 rest

theorem yields_append (f : Framer) (a b : List UInt8) :
    f.yields (a ++ b) = f.yields a ++ (f.feed a).2.yields b := by
  induction a generalizing f with
  | nil => rfl
  | cons x a ih => rw [List.cons_append, yields, ih, feed_cons, yields, List.cons_append]

/-- Bytes without a delimiter yield nothing. -/
theorem yields_holding (hd : delimiter ∉ bytes) (tail : List UInt8) :
    (holding tail).yields bytes = List.replicate bytes.length none := by
  induction bytes generalizing tail with
  | nil => rfl
  | cons b bytes ih =>
    rw [List.mem_cons, not_or] at hd
    rw [yields, push_holding (Ne.symm hd.1), ih hd.2]
    rfl

/-- Of all that a receiver has been fed, what counts is what has come since the last delimiter. -/
theorem feed_empty_snd (past : List UInt8) :
    (empty.feed past).2 = holding (past.rtakeWhile (· ≠ delimiter)) := by
  induction past using List.reverseRecOn with
  | nil => rfl
  | append_singleton past b ih =>
    rw [feed_append, ih]
    by_cases hb : b = delimiter
    · subst hb
      rw [List.rtakeWhile_concat_neg _ _ _ (by simp)]
      exact push_delimiter_snd _
    · rw [List.rtakeWhile_concat_pos _ _ _ (by simpa using hb)]
      exact congrArg Prod.snd (push_holding hb _)

/-- What a receiver can hold of a message. -/
def kept (m : List UInt8) : List UInt8 := front capacity m

/-- What a receiver yields at the bytes of a frame: nothing until it closes. -/
def yielded (m : List UInt8) : List (Option (List UInt8)) :=
  none :: List.replicate (stuff m).length none ++ [some (kept m)]

/-- What is left over of a frame that no delimiter has closed. -/
def leftover (tail : List UInt8) : Option (List UInt8) :=
  if tail = [] then none else some (unstuff (tail.take capacity))

theorem yields_frame {m : List UInt8} (hm : m ≠ []) (tail : List UInt8) :
    (holding tail).yields (frame m) = (yielded m).modifyHead fun _ => leftover tail := by
  have hd := delimiter_notMem_stuff m
  have hs : stuff m ≠ [] := stuff_ne_nil hm
  rw [frame, yields, push_delimiter_holding, yields_append]
  change _ :: ((holding []).yields _ ++ ((holding []).feed _).2.yields _) = _
  rw [yields_holding hd, feed_holding hd, List.nil_append, yields, push_delimiter_holding,
    if_neg hs, unstuff_take_stuff]
  rfl

/-- From one frame to the next nothing is carried over. -/
theorem yields_frames_empty {ms : List (List UInt8)} (hms : ∀ m ∈ ms, m ≠ []) :
    empty.yields (ms.flatMap frame) = ms.flatMap yielded := by
  induction ms with
  | nil => rfl
  | cons m ms ih =>
    have hm : empty.yields (frame m) = yielded m := yields_frame (hms m List.mem_cons_self) []
    rw [List.flatMap_cons, List.flatMap_cons, yields_append, hm, feed_frame_snd,
      ih fun m' hm' => hms m' (List.mem_cons_of_mem m hm')]

/-- Whatever a receiver has been fed, it holds what has come since the last delimiter, up to its
capacity. Fed the frames of messages then, it yields at the first delimiter what is left over, if
anything is, and from there on each message at its own closing delimiter and nothing else, and is
left empty. A message whose stuffed form does not fit is cut to a proper front of it of at least 64
bytes; the messages after it are not affected. -/
theorem yields_frames (past : List UInt8) (ms : List (List UInt8)) (hms : ∀ m ∈ ms, m ≠ []) :
    let f : Framer := (empty.feed past).2
    let tail := past.rtakeWhile (· ≠ delimiter)
    f.pending.toList = tail.take capacity ∧
      f.yields (ms.flatMap frame) =
        (ms.flatMap yielded).modifyHead (fun _ => leftover tail) ∧
      (f.feed (ms.flatMap frame)).2 = (if ms = [] then f else empty) ∧
      ∀ m ∈ ms, if (stuff m).length ≤ capacity then kept m = m
        else kept m <+: m ∧ kept m ≠ m ∧ 64 ≤ (kept m).length := by
  intro f tail
  have hf : f = holding tail := feed_empty_snd past
  refine ⟨by rw [hf, holding], ?_, ?_, ?_⟩
  · cases ms with
    | nil => rfl
    | cons m ms =>
      have hm : m ≠ [] := hms m List.mem_cons_self
      rw [List.flatMap_cons, List.flatMap_cons, yields_append, feed_frame_snd,
        yields_frames_empty fun m' hm' => hms m' (List.mem_cons_of_mem m hm'), hf,
        yields_frame hm tail]
      rfl
  · cases ms with
    | nil => rfl
    | cons m ms =>
      rw [List.flatMap_cons, feed_append, feed_frame_snd]
      exact feed_frames_snd ms
  · intro m hm
    split
    · rename_i hfits
      exact front_of_length_le hfits
    · rename_i hlong
      obtain ⟨hne, hlen⟩ := front_of_lt_length (Nat.lt_of_not_le hlong)
      exact ⟨prefix_front .., hne, by unfold kept capacity at *; omega⟩

/-- A receiver that was left with half a pair, then a message of a delimiter and an escape, and one
of 65 delimiters, of which 64 fit. -/
theorem yields_frames_cut :
    (∀ m ∈ [[delimiter, escape], List.replicate 65 delimiter], m ≠ []) ∧
      (empty.feed [delimiter, 0x10, escape]).2.yields
          (frame [delimiter, escape] ++ frame (List.replicate 65 delimiter)) =
        some [0x10] :: List.replicate 4 none ++ [some [delimiter, escape]] ++
          none :: List.replicate 130 none ++ [some (List.replicate 64 delimiter)] := by
  have hms : ∀ m ∈ [[delimiter, escape], List.replicate 65 delimiter], m ≠ [] := by decide
  refine ⟨hms, ?_⟩
  have h := (yields_frames [delimiter, 0x10, escape] _ hms).2.1
  rw [List.flatMap_cons, List.flatMap_singleton] at h
  rw [h]
  decide +kernel

end Framer

end KnitBench.Wire
