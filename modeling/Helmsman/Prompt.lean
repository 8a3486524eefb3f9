import Helmsman.Template.Renderer
import Helmsman.Tools.Executor
/-!
# The system prompt

What the model is told before a conversation: the cluster it is about and the tools it may use. The built-in template
can be replaced by the text of a file; a name that is no file of the caller's is looked up among the bundled prompts,
of which there is one.
-/

namespace Helmsman.Prompt

def builtInLines : List String :=
  [
    "You are the Polaris AI assistant. You help operators manage and diagnose Kubernetes clusters.\n",
    "Current cluster: \x7b\x7b cluster_name \x7d\x7d, Kubernetes version: \x7b\x7b cluster_version \x7d\x7d\n",
    "\n",
    "You can use the following tools to query cluster resources and analyse problems:\n",
    "\x7b% for tool in tools %\x7d\n",
    "- \x7b\x7b tool.name \x7d\x7d: \x7b\x7b tool.description \x7d\x7d"
      ++ "\x7b% if tool.mutating %\x7d (requires user confirmation)\x7b% endif %\x7d\n",
    "\x7b%- endfor %\x7d\n",
    "\n",
    "Rules:\n",
    "1. Use the tools to gather data before answering the user's question.\n",
    "2. For write operations (scaling, restarting), first tell the user exactly what will change and wait for their "
      ++ "explicit confirmation. Only then call the tool again with `confirmed: true`.\n",
    "3. Answer in Markdown and use tables for lists of resources.\n",
    "4. If a tool returns an error, explain the cause to the user.\n"
  ]

def builtIn : String := "".intercalate builtInLines

def bundled? (name : String) : Option String := if name == "system.md" then some builtIn else none

def toolContext (t : Tool) : Json :=
  .ofMembers [("name", .string t.name), ("description", .string t.description), ("mutating", .bool t.mutating)]

def context (cluster : ClusterInfo) (tools : List Tool) : Json :=
  .ofMembers [("cluster_name", .string cluster.name), ("cluster_version", .string cluster.version),
    ("tools", .array (tools.map toolContext))]

/-- Where the template comes from. A file has a text or cannot be read. -/
inductive Source
  | builtIn
  | file (text : Option String)
  deriving Repr, DecidableEq, Inhabited

def Source.text? : Source → Option String
  | .builtIn => some Prompt.builtIn
  | .file text => text

def load (source : Source) (context : Json) : Except Template.Failure String :=
  match source.text? with
  | none => .error .unreadable
  | some text => Template.render text context

def system (source : Source) (cluster : ClusterInfo) : Except Template.Failure String :=
  load source (context cluster catalog)

def failureMessage (f : Template.Failure) : String := "Failed to render the system prompt: " ++ f.message

end Helmsman.Prompt
