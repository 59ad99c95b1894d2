import VisualNovel.CommandLine.Command
import VisualNovel.Play.Terminal

/-!
# Commands on paper

A command line can be run on a transcript and a tree of files, without a terminal or a
disk.
-/

namespace VisualNovel

/-- The surroundings of a command on paper. -/
def Transcript.host : Host (StateM (Transcript × FileTree)) where
  files := FileTree.access
  print text := modify fun (t, files) => (t.print text, files)
  report text := modify fun (t, files) => (t.report text, files)

end VisualNovel
