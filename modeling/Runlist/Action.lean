/-!
# Names of actions

A task names its action by a key, with or without the prefix of the built-in collection.

* `Action.withPrefixed`: names and their prefixed spellings.
* `Action.taskIncludes`, `Action.roleIncludes`, `Action.playbookImports`: the keys of directives.
-/

namespace Runlist.Action

/-- The prefix of the built-in collection. -/
def builtin : String := "ansible.builtin."

/-- Names, followed by their prefixed spellings in the same order. -/
def withPrefixed (names : List String) : List String := names ++ names.map (builtin ++ ·)

/-- The keys that include a file of tasks. -/
def taskIncludes : List String := withPrefixed ["include_tasks", "import_tasks"]

/-- The keys that include a role. -/
def roleIncludes : List String := withPrefixed ["include_role", "import_role"]

/-- The keys that import a playbook. -/
def playbookImports : List String := withPrefixed ["import_playbook", "include_playbook"]

end Runlist.Action
