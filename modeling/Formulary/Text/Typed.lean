import Formulary.Text.Cluster

/-! # Typed text

A text as it stands after typing: a backspace takes back the cluster before it, if there is one. What
it takes back is counted in bytes, and the count has one byte itself. -/

namespace Formulary.Text

/-- The text that stands so far, in reverse, and what each backspace would take back of it. -/
structure Typing where
  back : List Char := []
  counts : List Nat := []

/-- How many bytes of a cluster a backspace takes back: the length of the cluster, of which only the
low eight bits are kept. -/
def backspaceCount (cluster : List Char) : Nat := (String.ofList cluster).utf8ByteSize % 256

/-- Drops characters until that many bytes are gone. -/
def dropBytes : Nat → List Char → List Char
  | 0, cs => cs
  | _ + 1, [] => []
  | n + 1, c :: cs => dropBytes (n + 1 - c.utf8Size) cs

def Typing.press (t : Typing) (cluster : List Char) : Typing :=
  if cluster = ['\x08'] then
    match t.counts with
    | [] => t
    | n :: counts => ⟨dropBytes n t.back, counts⟩
  else ⟨cluster.reverse ++ t.back, backspaceCount cluster :: t.counts⟩

def typed (s : String) : String :=
  String.ofList ((Cluster.split s.toList).foldl Typing.press {}).back.reverse

theorem back_foldl_press (t : Typing) (clusters : List (List Char)) (h : ['\x08'] ∉ clusters) :
    (clusters.foldl Typing.press t).back = clusters.flatten.reverse ++ t.back := by
  induction clusters generalizing t with
  | nil => simp
  | cons c clusters ih =>
    have hc : c ≠ ['\x08'] := fun e ↦ h (by simp [e])
    rw [List.foldl_cons, ih _ fun e ↦ h (List.mem_cons_of_mem c e)]
    simp [Typing.press, hc]

/-- A text without a backspace stands as it is. -/
theorem typed_eq_self {s : String} (h : '\x08' ∉ s.toList) : typed s = s := by
  have hs : ['\x08'] ∉ Cluster.split s.toList := fun e ↦ h <| by
    rw [← Cluster.flatten_split s.toList]
    exact List.mem_flatten_of_mem e (by simp)
  simp [typed, back_foldl_press _ _ hs, Cluster.flatten_split]

end Formulary.Text
