import IdaMcp.Foreground.Local
import IdaMcp.Foreground.Pooled

namespace IdaMcp.Foreground

open Foundation Handle Remote

def anyInfo : Config where
  dbInfo := fun _ => .ok ⟨true⟩
  value := fun _ => .ok .null

def opener : Client := ⟨"session", .session "session", false⟩

def openedReply : CallToolResult := { content := [.text "\x7b\x7d"], isError := none, metadata := none }

def failedReply : CallToolResult :=
  { content := [.text "IDA error: the loader failed"], isError := some true, metadata := none }

def getsLease : List (Action Pooled.Action) :=
  [.backend (.handle (.run 0 (.healthy true))), .backend (.handle (.run 0 (.leased (.ok ⟨1, 0, 1, false⟩))))]

def failsInCleanup : List (Action Pooled.Action) :=
  getsLease.append [.backend .dispatch, .giveUp .cancelled, .backend (.reply (.ok failedReply)),
    .backend .settle, .backend (.handle (.run 0 .proceed)), .backend (.handle (.run 0 (.released (.ok ())))),
    .poll]

def pooledStart (sharedHttp : Bool) : State Pooled := begin (Pooled.start (Handle.initial sharedHttp) opener)

def localStart : State Local := begin (Local.start (Worker.Loop.initial true none) (.ofPath "sample.i64"))

def cancelledAtLast : Worker.Answers :=
  { Worker.Answers.succeeding with
    database := { Worker.OpenAnswers.succeeding with cancelled := fun check => check = 4 } }

def givenUpLocally (answers : Worker.Answers) : List (Action Local.Action) :=
  [.backend (.send false), .backend .dequeue, .giveUp .cancelled, .backend (.answer answers), .poll]

/-- A shared worker answers within the window; the open is cancelled before its dispatch; its answer is there
when it is cancelled; the window ends before the answer. -/
def strandingRuns : List (Bool × List (Action Pooled.Action)) :=
  [(true, getsLease.append [.backend .dispatch, .giveUp .cancelled, .backend (.reply (.ok openedReply)),
      .backend .settle, .poll]),
    (false, getsLease.append [.giveUp .cancelled, .backend .cancelAdmission, .backend .settle, .poll]),
    (false, getsLease.append [.backend .dispatch, .backend (.reply (.ok openedReply)), .giveUp .cancelled,
      .backend .settle, .poll]),
    (true, getsLease.append [.backend .dispatch, .giveUp .cancelled, .expire])]

end IdaMcp.Foreground
