import Roster.Repo
import Roster.Saver.Entry

/-!
One flush: teams are sent to a repo in chunks, in order. A refused chunk is kept whole, and the
chunks after it are sent all the same.
-/

namespace Roster.Saver

variable {σ : Type}

def kept (chunk : List Team) : Except StoreError (List UInt64) → List Team
  | .ok _ => []
  | .error _ => chunk

def Entry.ofAnswer (index : Nat) (chunk : List Team) :
    Except StoreError (List UInt64) → Entry
  | .ok ids => .written index ids.length
  | .error error => .failed index chunk.length error

structure Flushed (σ : Type) where
  failed : List Team
  log : List Entry
  world : σ

def send (repo : Repo σ) (world : σ) (index : Nat) : List (List Team) → Flushed σ
  | [] => ⟨[], [], world⟩
  | c :: cs =>
    let (world, reply) := repo world c
    let after := send repo world (index + 1) cs
    ⟨kept c reply.outcome ++ after.failed, Entry.ofAnswer index c reply.outcome :: after.log,
      after.world⟩

def discard (chunkSize : Nat) (ts : List Team) : List Entry :=
  if ts = [] then [] else [.discarded ts.length chunkSize]

/-- Flushes teams in chunks of the given size. Without chunks nothing is sent or kept. -/
def flush (repo : Repo σ) (chunkSize : Nat) (world : σ) (ts : List Team) : Flushed σ :=
  match chunks chunkSize ts with
  | [] => ⟨[], discard chunkSize ts, world⟩
  | cs => send repo world 0 cs

end Roster.Saver
