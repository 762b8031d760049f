/-!
Maps as lists of pairs in insertion order. A key that is set again keeps its place and its first
form.
-/
namespace FileChecks.Assoc
variable {κ ν : Type} [BEq κ]

def get? (m : List (κ × ν)) (key : κ) : Option ν := (m.find? (·.1 == key)).map (·.2)

def put (m : List (κ × ν)) (key : κ) (v : ν) : List (κ × ν) :=
  match m with
  | [] => [(key, v)]
  | (k, w) :: rest => if k == key then (k, v) :: rest else (k, w) :: put rest key v

def update (m later : List (κ × ν)) : List (κ × ν) := later.foldl (fun m p => put m p.1 p.2) m

end FileChecks.Assoc
