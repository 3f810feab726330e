import CopyJump.Proofs.Delivery
import CopyJump.Proofs.Provenance
import CopyJump.Proofs.WrappedMemory

namespace CopyJump

inductive Ending
  | done
  | fault (f : Fault)
  | more

variable {S : Type} [Source S]

/-- Bytes that a source hands out before it comes to an ending. Whatever is asked for, it may give
any piece of them that is not empty. Behind bytes that are followed by more, nothing is said. -/
inductive Hands : S → List UInt8 → Ending → Prop
  | done {s : S} (read : ∀ n, 0 < n → (Source.read s n).1 = .ok .empty) : Hands s [] .done
  | fault {s : S} {f : Fault} (read : ∀ n, 0 < n → (Source.read s n).1 = .error f) :
      Hands s [] (.fault f)
  | more (s : S) : Hands s [] .more
  | piece {s : S} {bytes : List UInt8} {ending : Ending} (piece : Nat → ByteArray) (next : Nat → S)
      (left : Nat → List UInt8)
      (read : ∀ n, 0 < n → (ending = .more → n ≤ bytes.length) →
        Source.read s n = (.ok (piece n), next n) ∧ 0 < (piece n).size ∧ (piece n).size ≤ n ∧
          bytes = (piece n).data.toList ++ left n)
      (hands : ∀ n, 0 < n → (ending = .more → n ≤ bytes.length) → Hands (next n) (left n) ending) :
      Hands s bytes ending

def fetchRest (limit : Nat) (s : S) (acc : ByteArray) : Except Fault ByteArray × S :=
  if _ : acc.size < limit then
    match Source.read s (limit - acc.size) with
    | (.error fault, s) => (.error fault, s)
    | (.ok piece, s) =>
      let taken := piece.extract 0 (limit - acc.size)
      if _ : 0 < taken.size then fetchRest limit s (acc ++ taken) else (.ok acc, s)
  else (.ok acc, s)
termination_by limit - acc.size
decreasing_by
  have : 0 < (piece.extract 0 (limit - acc.size)).size := by assumption
  rw [ByteArray.size_append]
  omega

theorem fst_fetchRest (limit : Nat) (s : S) (acc : ByteArray) :
    (fetchRest limit s acc).1 = fetch limit s acc := by
  fun_induction fetch limit s acc with
  | case1 s acc hlt fault s' hr => rw [fetchRest, dif_pos hlt, hr]
  | case2 s acc hlt piece s' hr taken hpos ih =>
    rw [fetchRest, dif_pos hlt, hr]
    dsimp only
    rw [dif_pos hpos, ih]
  | case3 s acc hlt piece s' hr taken hpos =>
    rw [fetchRest, dif_pos hlt, hr]
    dsimp only
    rw [dif_neg hpos]
  | case4 s acc hlt => rw [fetchRest, dif_neg hlt]

section Fetch

variable {s next : S} {limit : Nat} {acc piece : ByteArray}

theorem fetchRest_of_full (h : acc.size = limit) : fetchRest limit s acc = (.ok acc, s) := by
  rw [fetchRest, dif_neg (by omega)]

theorem fetchRest_of_fault {f : Fault} (hlt : acc.size < limit)
    (hr : Source.read s (limit - acc.size) = (.error f, next)) :
    fetchRest limit s acc = (.error f, next) := by
  rw [fetchRest, dif_pos hlt, hr]

theorem fetchRest_of_done (hlt : acc.size < limit)
    (hr : Source.read s (limit - acc.size) = (.ok .empty, next)) :
    fetchRest limit s acc = (.ok acc, next) := by
  rw [fetchRest, dif_pos hlt, hr]
  dsimp only
  rw [dif_neg (by simp)]

theorem fetchRest_of_piece (hr : Source.read s (limit - acc.size) = (.ok piece, next))
    (hpos : 0 < piece.size) (hle : piece.size ≤ limit - acc.size) :
    fetchRest limit s acc = fetchRest limit next (acc ++ piece) := by
  have hwhole : piece.extract 0 (limit - acc.size) = piece := by
    rw [← Nat.max_eq_left hle, ByteArray.extract_zero_max_size]
  rw [fetchRest, dif_pos (by omega), hr]
  dsimp only
  rw [hwhole, dif_pos hpos]

end Fetch

def Ending.result (program : ByteArray) : Ending → Except Fault ByteArray
  | .fault f => .error f
  | _ => .ok program

namespace Hands

variable {s : S} {bytes : List UInt8} {ending : Ending} {limit : Nat} {acc : ByteArray}

theorem fetch_full (h : Hands s bytes ending) (hfull : acc.size = limit) :
    ∃ program rest, fetchRest limit s acc = (.ok program, rest) ∧
      program.data.toList = acc.data.toList ++ bytes.take (limit - acc.size) ∧
      Hands rest (bytes.drop (limit - acc.size)) ending := by
  have hzero : limit - acc.size = 0 := by omega
  refine ⟨acc, s, fetchRest_of_full hfull, ?_, ?_⟩
  · rw [hzero, List.take_zero, List.append_nil]
  · rwa [hzero, List.drop_zero]

theorem fetch_enough (h : Hands s bytes ending) (hacc : acc.size ≤ limit)
    (hle : limit - acc.size ≤ bytes.length) :
    ∃ program rest, fetchRest limit s acc = (.ok program, rest) ∧
      program.data.toList = acc.data.toList ++ bytes.take (limit - acc.size) ∧
      Hands rest (bytes.drop (limit - acc.size)) ending := by
  induction h generalizing acc with
  | done read =>
    rw [List.length_nil] at hle
    exact fetch_full (done read) (by omega)
  | fault read =>
    rw [List.length_nil] at hle
    exact fetch_full (fault read) (by omega)
  | more s =>
    rw [List.length_nil] at hle
    exact fetch_full (more s) (by omega)
  | @piece s bytes ending piece next left read hands ih =>
    rcases hacc.eq_or_lt with hfull | hlt
    · exact fetch_full (.piece piece next left read hands) hfull
    obtain ⟨hr, hpos, hsize, hbytes⟩ := read (limit - acc.size) (by omega) fun _ ↦ hle
    have hnext := @ih (limit - acc.size) (by omega) (fun _ ↦ hle) (acc ++ piece (limit - acc.size))
    generalize piece (limit - acc.size) = taken at hr hpos hsize hbytes hnext
    generalize next (limit - acc.size) = rest at hr hnext
    generalize left (limit - acc.size) = behind at hbytes hnext
    have hlen : taken.data.toList.length = taken.size := rfl
    have hroom : limit - (acc ++ taken).size = limit - acc.size - taken.size := by
      rw [ByteArray.size_append]
      omega
    subst hbytes
    rw [List.length_append, hlen] at hle
    rw [hroom, ByteArray.toList_data_append, ByteArray.size_append] at hnext
    obtain ⟨program, rest', hfetch, hprogram, hrest⟩ := hnext (by omega) (by omega)
    have htake : taken.data.toList.take (limit - acc.size) = taken.data.toList :=
      List.take_of_length_le (by omega)
    have hdrop : taken.data.toList.drop (limit - acc.size) = [] :=
      List.drop_of_length_le (by omega)
    refine ⟨program, rest', ?_, ?_, ?_⟩
    · rw [fetchRest_of_piece hr hpos hsize, hfetch]
    · rw [hprogram, List.take_append, htake, hlen, List.append_assoc]
    · rwa [List.drop_append, hdrop, List.nil_append, hlen]

theorem fetch_short (h : Hands s bytes ending) (hmore : ending ≠ .more)
    (hlt : bytes.length < limit - acc.size) :
    ∃ program rest, fetchRest limit s acc = (ending.result program, rest) ∧
      program.data.toList = acc.data.toList ++ bytes := by
  induction h generalizing acc with
  | @done s read =>
    have hr : Source.read s (limit - acc.size) = (.ok .empty, _) := Prod.ext (read _ hlt) rfl
    exact ⟨acc, _, fetchRest_of_done (by omega) hr, (List.append_nil _).symm⟩
  | @fault s f read =>
    have hr : Source.read s (limit - acc.size) = (.error f, _) := Prod.ext (read _ hlt) rfl
    exact ⟨acc, _, fetchRest_of_fault (by omega) hr, (List.append_nil _).symm⟩
  | more s => exact absurd rfl hmore
  | @piece s bytes ending piece next left read hands ih =>
    have hasks : ending = .more → limit - acc.size ≤ bytes.length := fun h ↦ absurd h hmore
    obtain ⟨hr, hpos, hsize, hbytes⟩ := read (limit - acc.size) (by omega) hasks
    have hnext := @ih (limit - acc.size) (by omega) hasks (acc ++ piece (limit - acc.size)) hmore
    generalize piece (limit - acc.size) = taken at hr hpos hsize hbytes hnext
    generalize next (limit - acc.size) = rest at hr hnext
    generalize left (limit - acc.size) = behind at hbytes hnext
    have hlen : taken.data.toList.length = taken.size := rfl
    subst hbytes
    rw [List.length_append, hlen] at hlt
    rw [ByteArray.toList_data_append, ByteArray.size_append] at hnext
    obtain ⟨program, rest', hfetch, hprogram⟩ := hnext (by omega)
    refine ⟨program, rest', ?_, ?_⟩
    · rw [fetchRest_of_piece hr hpos hsize, hfetch]
    · rw [hprogram, List.append_assoc]

end Hands

namespace Trickle

variable {t : Trickle}

def stop (t : Trickle) : Nat :=
  match t.failAfter with
  | some k => min k t.data.size
  | none => t.data.size

def ending (t : Trickle) : Ending :=
  match t.failAfter with
  | some k => if k ≤ max t.position t.data.size then .fault (.refused "read failed") else .done
  | none => .done

def rest (t : Trickle) : List UInt8 := (t.data.extract t.position t.stop).data.toList

def after (t : Trickle) (len : Nat) : Trickle :=
  { t with position := t.position + (t.data.extract t.position (t.position + len)).size }

theorem read_of_fault {k : Nat} (hfail : t.failAfter = some k) (hk : k ≤ t.position) (n : Nat) :
    (Source.read t n).1 = .error (.refused "read failed") := by
  change (t.read n).1 = _
  rw [Trickle.read, hfail]
  dsimp only
  rw [if_pos hk]

theorem read_of_flowing (h : ∀ k, t.failAfter = some k → t.position < k) (n : Nat) :
    ∃ len, Source.read t n = (.ok (t.data.extract t.position (t.position + len)), t.after len) ∧
      len ≤ n ∧ (0 < n → 0 < t.piece → 0 < len) ∧
      ∀ k, t.failAfter = some k → t.position + len ≤ k := by
  obtain ⟨data, piece, failAfter, position⟩ := t
  cases failAfter with
  | none =>
    exact ⟨min n piece, rfl, Nat.min_le_left _ _, fun hn hp ↦ Nat.lt_min.mpr ⟨hn, hp⟩, by simp⟩
  | some k =>
    have hlt : position < k := h k rfl
    have hroom : 0 < k - position := Nat.sub_pos_of_lt hlt
    refine ⟨min (min n piece) (k - position), ?_, by omega,
      fun hn hp ↦ Nat.lt_min.mpr ⟨Nat.lt_min.mpr ⟨hn, hp⟩, hroom⟩, ?_⟩
    · change Trickle.read _ n = _
      rw [Trickle.read]
      dsimp only
      rw [if_neg (by omega)]
      rfl
    · rintro _ ⟨⟩
      change position + _ ≤ k
      omega

theorem stop_le_size (t : Trickle) : t.stop ≤ t.data.size := by
  unfold stop
  split
  · exact Nat.min_le_right _ _
  · exact Nat.le_refl _

theorem le_stop {i : Nat} (hsize : i ≤ t.data.size) (h : ∀ k, t.failAfter = some k → i ≤ k) :
    i ≤ t.stop := by
  unfold stop
  split
  case h_1 k hfail => exact Nat.le_min.mpr ⟨h k hfail, hsize⟩
  case h_2 => exact hsize

theorem rest_of_le (h : t.stop ≤ t.position) : t.rest = [] := by
  have hempty : t.data.extract t.position t.stop = .empty :=
    ByteArray.extract_eq_empty_iff.mpr (by omega)
  rw [rest, hempty]
  rfl

theorem rest_eq_append {len : Nat} (h : ∀ k, t.failAfter = some k → t.position + len ≤ k)
    (hlt : t.position < t.data.size) :
    t.rest = (t.data.extract t.position (t.position + len)).data.toList ++ (t.after len).rest := by
  have hsize : (t.data.extract t.position (t.position + len)).size =
      min (t.position + len) t.data.size - t.position := ByteArray.size_extract
  have hpiece := extract_add_size t.data t.position len
  have hafter : (t.after len).rest = (t.data.extract
    (t.position + (t.data.extract t.position (t.position + len)).size) t.stop).data.toList := rfl
  generalize t.data.extract t.position (t.position + len) = piece at hsize hpiece hafter ⊢
  have hstop : t.position + piece.size ≤ t.stop := by
    apply le_stop
    · omega
    · intro k hk
      have hle := h k hk
      omega
  have hsplit := ByteArray.extract_eq_extract_append_extract (a := t.data) (i := t.position)
    (t.position + piece.size) (by omega) hstop
  rw [hafter, rest, hsplit, ← hpiece, ByteArray.toList_data_append]

theorem ending_after (h : t.position ≤ t.data.size) (len : Nat) :
    (t.after len).ending = t.ending := by
  have hsize : (t.data.extract t.position (t.position + len)).size =
      min (t.position + len) t.data.size - t.position := ByteArray.size_extract
  have hposition : (t.after len).position =
    t.position + (t.data.extract t.position (t.position + len)).size := rfl
  have hmax : max (t.after len).position t.data.size = max t.position t.data.size := by omega
  have hfail : (t.after len).failAfter = t.failAfter := rfl
  have hdata : (t.after len).data = t.data := rfl
  rw [ending, ending, hfail, hdata, hmax]

/-- However small its pieces are and wherever it fails, a trickle hands out the bytes before. -/
theorem hands (t : Trickle) (hpiece : 0 < t.piece) : Hands t t.rest t.ending := by
  have hle := t.stop_le_size
  induction hd : t.data.size - t.position using Nat.strong_induction_on generalizing t with
  | _ d ih =>
    by_cases hflow : ∀ k, t.failAfter = some k → t.position < k
    case neg =>
      obtain ⟨k, hfail, hk⟩ : ∃ k, t.failAfter = some k ∧ k ≤ t.position := by
        simpa using hflow
      have hstop : t.stop ≤ t.position := by
        rw [stop, hfail]
        exact (Nat.min_le_left _ _).trans hk
      have hending : t.ending = .fault (.refused "read failed") := by
        rw [ending, hfail]
        exact if_pos (hk.trans (Nat.le_max_left _ _))
      rw [rest_of_le hstop, hending]
      exact .fault fun n _ ↦ read_of_fault hfail hk n
    case pos =>
      choose len hread hlen hpos hbound using read_of_flowing hflow
      have hsize (n : Nat) : (t.data.extract t.position (t.position + len n)).size =
          min (t.position + len n) t.data.size - t.position := ByteArray.size_extract
      rcases Nat.lt_or_ge t.position t.data.size with hlt | hge
      · have hgiven (n : Nat) (hn : 0 < n) :
            0 < (t.data.extract t.position (t.position + len n)).size ∧
              (t.data.extract t.position (t.position + len n)).size ≤ n := by
          have hnonempty := hpos n hn hpiece
          have hmost := hlen n
          have hsize := hsize n
          omega
        refine .piece (fun n ↦ t.data.extract t.position (t.position + len n))
          (fun n ↦ t.after (len n)) (fun n ↦ (t.after (len n)).rest) ?_ ?_
        · intro n hn _
          obtain ⟨hnonempty, hmost⟩ := hgiven n hn
          exact ⟨hread n, hnonempty, hmost, rest_eq_append (hbound n) hlt⟩
        · intro n hn _
          have hnonempty := (hgiven n hn).1
          have hposition : (t.after (len n)).position =
            t.position + (t.data.extract t.position (t.position + len n)).size := rfl
          rw [← ending_after (by omega) (len n)]
          exact ih (t.data.size - (t.after (len n)).position) (by omega) (t.after (len n)) hpiece
            hle rfl
      · have hending : t.ending = .done := by
          unfold ending
          split
          case h_1 k hfail =>
            have hk := hflow k hfail
            exact if_neg (by omega)
          case h_2 => rfl
        rw [rest_of_le (by omega), hending]
        refine .done fun n _ ↦ ?_
        have hempty : t.data.extract t.position (t.position + len n) = .empty :=
          ByteArray.extract_eq_empty_iff.mpr (by omega)
        rw [hread, hempty]

end Trickle

namespace Machine

variable {s : S} {bytes : List UInt8} {ending : Ending}

theorem access_loadFrom_of_fetched (vm : Machine Memory) {rest : S} {program : ByteArray}
    (h : fetchRest fetchLimit s .empty = (.ok program, rest)) :
    vm.access (.loadFrom s) = vm.store (vm.memory.load program) := by
  have hfetch : fetch fetchLimit s .empty = .ok program := by
    rw [← fst_fetchRest, h]
  rw [access, AddressSpace.loadFrom, hfetch]
  rfl

theorem access_loadFrom_of_lost (vm : Machine Memory) {rest : S} {f : Fault}
    (h : fetchRest fetchLimit s .empty = (.error f, rest)) :
    vm.access (.loadFrom s) = (.error (.unavailable f), vm) := by
  have hfetch : fetch fetchLimit s .empty = .error f := by
    rw [← fst_fetchRest, h]
  rw [access, AddressSpace.loadFrom, hfetch]
  rfl

theorem ofRom_of_large {rom : ByteArray} (h : addressSpaceSize < rom.size) :
    Memory.ofRom rom = .error (.romTooLarge rom.size) :=
  dif_neg (Nat.not_le.mpr h)

theorem load_of_large (vm : Machine Memory) {rom : ByteArray} (h : addressSpaceSize < rom.size) :
    vm.load rom = (.error (.romTooLarge rom.size), vm) := by
  have hload : AddressSpace.load vm.memory rom = vm.memory.load rom := rfl
  rw [load, hload, Memory.load_of_refused (ofRom_of_large h)]

theorem load_of_fitting (vm : Machine Memory) {rom : ByteArray} (h : rom.size ≤ addressSpaceSize) :
    ∃ memory, Memory.ofRom rom = .ok memory ∧ vm.load rom = (.ok (), { vm with memory }) ∧
      ∀ a : Address, memory.read a = rom.data.toList.getD a.index 0 := by
  obtain ⟨memory, hrom, hload⟩ := vm.load_eq_ok h
  refine ⟨memory, hrom, hload, fun a ↦ ?_⟩
  rw [Memory.read_ofRom hrom, List.getD_eq_getElem?_getD]
  split
  case isTrue hlt =>
    have hbyte : rom.data.toList[a.index]? = some rom[a.index] := List.getElem?_eq_getElem hlt
    rw [hbyte, Option.getD_some]
  case isFalse hge =>
    have hnone : rom.data.toList[a.index]? = none := List.getElem?_eq_none (Nat.not_lt.mp hge)
    rw [hnone, Option.getD_none]

theorem access_loadFrom_of_large (h : Hands s bytes ending) (vm : Machine Memory)
    (hlarge : addressSpaceSize < bytes.length) :
    vm.access (.loadFrom s) = (.error (.romTooLarge (addressSpaceSize + 1)), vm) ∧
      Hands (fetchRest fetchLimit s .empty).2 (bytes.drop (addressSpaceSize + 1)) ending := by
  obtain ⟨program, rest, hfetch, hprogram, hrest⟩ :=
    @Hands.fetch_enough _ _ _ _ _ fetchLimit .empty h (Nat.zero_le _) hlarge
  have hsize : program.size = addressSpaceSize + 1 := by
    change program.data.toList.length = _
    rw [hprogram]
    exact List.length_take_of_le hlarge
  have htoo : addressSpaceSize < program.size := by omega
  refine ⟨?_, ?_⟩
  · rw [access_loadFrom_of_fetched vm hfetch, Memory.load_of_refused (ofRom_of_large htoo), hsize]
    rfl
  · rw [hfetch]
    exact hrest

theorem access_loadFrom_of_fault {f : Fault} (h : Hands s bytes (.fault f)) (vm : Machine Memory)
    (hfits : bytes.length ≤ addressSpaceSize) :
    vm.access (.loadFrom s) = (.error (.unavailable f), vm) := by
  obtain ⟨program, rest, hfetch, -⟩ :=
    @Hands.fetch_short _ _ _ _ _ fetchLimit .empty h Ending.noConfusion (Nat.lt_succ_of_le hfits)
  exact access_loadFrom_of_lost vm hfetch

theorem access_loadFrom_of_done (h : Hands s bytes .done) (vm : Machine Memory)
    (hfits : bytes.length ≤ addressSpaceSize) :
    vm.access (.loadFrom s) = vm.store (vm.memory.load ⟨bytes.toArray⟩) := by
  obtain ⟨program, rest, hfetch, hprogram⟩ :=
    @Hands.fetch_short _ _ _ _ _ fetchLimit .empty h Ending.noConfusion (Nat.lt_succ_of_le hfits)
  have hwhole : program = ⟨bytes.toArray⟩ := by
    apply ByteArray.ext
    apply Array.toList_inj.mp
    exact hprogram
  rw [access_loadFrom_of_fetched vm hfetch, hwhole]

/-- A load from a stream depends on its bytes and on what comes behind them, never on the pieces
they come in. More bytes than memory holds are refused, and those behind the first one too many are
left in the source; a fault before that is reported; and both leave the machine as it was. Else
memory holds the bytes and zeros behind them, as after a load of all of them at once. -/
theorem load_of_stream (h : Hands s bytes ending) (vm : Machine Memory) :
    (addressSpaceSize < bytes.length →
      vm.access (.loadFrom s) = (.error (.romTooLarge (addressSpaceSize + 1)), vm) ∧
      (fetchRest fetchLimit s .empty).1 = fetch fetchLimit s .empty ∧
      Hands (fetchRest fetchLimit s .empty).2 (bytes.drop (addressSpaceSize + 1)) ending) ∧
    (bytes.length ≤ addressSpaceSize →
      (∀ f, ending = .fault f → vm.access (.loadFrom s) = (.error (.unavailable f), vm)) ∧
      (ending = .done → ∃ memory, vm.access (.loadFrom s) = (.ok .done, { vm with memory }) ∧
        vm.load ⟨bytes.toArray⟩ = (.ok (), { vm with memory }) ∧
        ∀ a : Address, memory.read a = bytes.getD a.index 0)) ∧
    ∀ rom : ByteArray,
      (addressSpaceSize < rom.size → vm.load rom = (.error (.romTooLarge rom.size), vm)) ∧
      (rom.size ≤ addressSpaceSize → ∃ memory, vm.load rom = (.ok (), { vm with memory }) ∧
        ∀ a : Address, memory.read a = rom.data.toList.getD a.index 0) := by
  refine ⟨?_, ?_, ?_⟩
  · intro hlarge
    obtain ⟨haccess, hrest⟩ := access_loadFrom_of_large h vm hlarge
    exact ⟨haccess, fst_fetchRest _ _ _, hrest⟩
  · intro hfits
    constructor
    · rintro f rfl
      exact access_loadFrom_of_fault h vm hfits
    · rintro rfl
      have hsize : (⟨bytes.toArray⟩ : ByteArray).size ≤ addressSpaceSize := hfits
      obtain ⟨memory, hrom, hload, hread⟩ := vm.load_of_fitting hsize
      refine ⟨memory, ?_, hload, hread⟩
      rw [access_loadFrom_of_done h vm hfits, Memory.load_of_ofRom hrom]
      rfl
  · intro rom
    constructor
    · exact vm.load_of_large
    · intro hfits
      obtain ⟨memory, -, hload, hread⟩ := vm.load_of_fitting hfits
      exact ⟨memory, hload, hread⟩

theorem load_of_stream_of_pieces :
    let vm : Machine Memory := ⟨.blank, 5⟩
    let failing : Trickle := ⟨⟨#[7, 8, 9]⟩, 2, some 2, 0⟩
    let whole : Trickle := ⟨⟨#[7, 8, 9]⟩, 2, none, 0⟩
    Hands failing [7, 8] (.fault (.refused "read failed")) ∧
      vm.access (.loadFrom failing) = (.error (.unavailable (.refused "read failed")), vm) ∧
      Hands whole [7, 8, 9] .done ∧
      ∃ memory, vm.access (.loadFrom whole) = (.ok .done, ⟨memory, 5⟩) ∧
        memory.read 2 = 9 ∧ memory.read 3 = 0 := by
  intro vm failing whole
  have hfailing : Hands failing [7, 8] (.fault (.refused "read failed")) :=
    failing.hands (by decide)
  have hwhole : Hands whole [7, 8, 9] .done := whole.hands (by decide)
  obtain ⟨-, hshort, -⟩ := load_of_stream hfailing vm
  obtain ⟨-, hshort', -⟩ := load_of_stream hwhole vm
  obtain ⟨memory, haccess, -, hread⟩ := (hshort' (by decide)).2 rfl
  refine ⟨hfailing, (hshort (by decide)).1 _ rfl, hwhole, memory, haccess, ?_, ?_⟩
  · rw [hread]
    rfl
  · rw [hread]
    rfl

end Machine

end CopyJump
