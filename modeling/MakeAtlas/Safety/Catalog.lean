/-
The catalog: rules for commands that destroy data, infrastructure, history or the work of others.
-/
import MakeAtlas.Safety.Rule

namespace MakeAtlas.Safety

/-- every rule of the catalog, in the order of evaluation -/
def catalog : List Rule := [
  { id := "rm-rf-root"
    severity := .critical
    patterns := ["rm\\s+(-\\w*f\\w*\\s+)\x7b1,2\x7d/[^/\\s]", "rm\\s+(-\\w*f\\w*\\s+)\x7b1,2\x7d\\$HOME",
      "sudo\\s+rm\\s+-\\w*rf", "rm\\s+(-\\w*f\\w*\\s+)\x7b1,2\x7d~", "rm\\s+(-\\w*f\\w*\\s+)\x7b1,2\x7d\\*"]
    description :=
      "Removes files with root privileges or system-wide paths. This can permanently delete critical system " ++
      "files or all user data."
    suggestion := "Use specific paths instead of wildcards or root directories. Double-check paths before execution." },
  { id := "disk-wipe"
    severity := .critical
    patterns := ["dd\\s+.*of=/dev/(sd|hd|nvme)", "mkfs\\.\\w+\\s+/dev/", "fdisk.*-w", "parted.*-s"]
    description := "Formats disks or writes to block devices. This will erase all data on the target device."
    suggestion := "Triple-check device paths. Use 'lsblk' to verify the correct device. Consider backing up first." },
  { id := "database-drop"
    severity := .critical
    patterns := ["(?i)drop\\s+database", "(?i)truncate\\s+table", "(?i)delete\\s+from.*where\\s+(1=1|true)",
      "psql.*-c.*drop", "mysql.*-e.*drop", "mongo.*dropDatabase"]
    description := "Drops databases or truncates tables. This causes permanent data loss."
    suggestion :=
      "Always back up before destructive database operations. Verify the database name (production vs dev)." },
  { id := "git-force-push"
    severity := .critical
    patterns := ["git\\s+push.*\\s+-f(\\s|$)", "git\\s+push.*\\s+--force(\\s|$)"]
    description := "Force pushes to a git repository, potentially overwriting others' work and losing history."
    suggestion :=
      "Coordinate with the team before force pushing. Use --force-with-lease as a safer alternative. Verify " ++
      "the branch name." },
  { id := "terraform-destroy"
    severity := .critical
    patterns := ["terraform\\s+destroy", "terraform\\s+apply.*-destroy", "tofu\\s+destroy"]
    description :=
      "Destroys Terraform-managed infrastructure. This will tear down all resources (VMs, databases, networks, etc)."
    suggestion :=
      "Run 'terraform plan -destroy' first to review changes. Verify the workspace/environment. Consider " ++
      "-target for specific resources." },
  { id := "kubectl-delete"
    severity := .critical
    patterns := ["kubectl\\s+delete\\s+(namespace|ns)", "kubectl\\s+delete\\s+(pvc|pv)", "kubectl\\s+delete.*--all",
      "kubectl\\s+delete.*-A", "kubectl\\s+delete.*--all-namespaces"]
    description := "Deletes Kubernetes resources, namespaces, or persistent volumes. Data in PVs will be lost."
    suggestion :=
      "Use 'kubectl get' first to verify resources. Check the current context with 'kubectl config current-context'." },
  { id := "docker-system-prune"
    severity := .warning
    patterns := ["docker\\s+system\\s+prune", "docker\\s+volume\\s+(prune|rm).*-f", "docker\\s+image\\s+prune.*-a",
      "docker\\s+container\\s+prune"]
    description := "Removes Docker volumes, images, or containers. May delete data or require lengthy rebuilds."
    suggestion := "Use specific container/volume names instead of prune. Consider the impact on local development." },
  { id := "git-reset-hard"
    severity := .warning
    patterns := ["git\\s+reset\\s+--hard", "git\\s+clean\\s+-\\w*fd"]
    description := "Discards uncommitted changes permanently. Untracked files will be deleted."
    suggestion :=
      "Stash changes with 'git stash' for recovery. Review changes with 'git status' and 'git diff' first." },
  { id := "npm-uninstall-all"
    severity := .warning
    patterns := ["rm\\s+-\\w*rf\\w*\\s+node_modules", "npm\\s+uninstall.*-g", "pnpm\\s+uninstall.*-g",
      "yarn\\s+global\\s+remove"]
    description := "Removes all Node.js dependencies or global packages. Requires reinstall."
    suggestion := "Use 'npm ci' or 'pnpm install --frozen-lockfile' to reinstall from the lock file." },
  { id := "package-remove"
    severity := .warning
    patterns := ["apt(-get)?\\s+remove", "yum\\s+remove", "dnf\\s+remove", "brew\\s+uninstall", "pacman\\s+-R"]
    description := "Removes system packages. May break system dependencies."
    suggestion := "Verify package names before removal. Consider the package manager's simulation mode first." },
  { id := "chmod-777"
    severity := .warning
    patterns := ["chmod\\s+(-R\\s+)?777", "chmod\\s+(-R\\s+)?a\\+rwx"]
    description := "Sets overly permissive file permissions (777 = world-writable). Security risk."
    suggestion := "Use more restrictive permissions. Typically 755 for executables, 644 for files." },
  { id := "aws-destructive"
    severity := .critical
    patterns := ["aws\\s+cloudformation\\s+delete-stack", "aws\\s+s3\\s+rb\\s+.*--force",
      "aws\\s+s3\\s+rm\\s+.*--recursive", "aws\\s+ec2\\s+terminate-instances", "aws\\s+rds\\s+delete-db-instance",
      "aws\\s+rds\\s+delete-db-cluster"]
    description :=
      "Deletes AWS resources (CloudFormation stacks, S3 buckets, EC2 instances, RDS databases). This destroys " ++
      "cloud infrastructure and data permanently."
    suggestion :=
      "Verify the AWS profile and region. Review resources with 'aws cloudformation describe-stacks' or 'aws " ++
      "s3 ls' first. Enable deletion protection for critical resources." },
  { id := "gcp-destructive"
    severity := .critical
    patterns := ["gcloud\\s+projects\\s+delete", "gcloud\\s+compute\\s+instances\\s+delete",
      "gcloud\\s+sql\\s+instances\\s+delete", "gsutil\\s+rb", "gsutil\\s+rm\\s+.*-r"]
    description := "Deletes GCP resources (projects, instances, Cloud SQL, GCS buckets). This destroys cloud " ++
      "infrastructure and data."
    suggestion :=
      "Verify the GCP project with 'gcloud config list'. Review resources with 'gcloud compute instances list' first." },
  { id := "azure-destructive"
    severity := .critical
    patterns := ["az\\s+group\\s+delete", "az\\s+vm\\s+delete", "az\\s+sql\\s+server\\s+delete",
      "az\\s+storage\\s+account\\s+delete"]
    description :=
      "Deletes Azure resources (resource groups, VMs, SQL servers, storage accounts). This destroys cloud " ++
      "infrastructure."
    suggestion := "Verify the subscription with 'az account show'. Review resources with 'az group list' first." },
  { id := "heroku-destructive"
    severity := .critical
    patterns := ["heroku\\s+apps:destroy", "heroku\\s+addons:destroy", "heroku\\s+pg:reset"]
    description := "Destroys Heroku applications, addons, or resets databases. This causes permanent data loss."
    suggestion := "Verify the app name with 'heroku apps'. Create a backup with 'heroku pg:backups:capture' first." },
  { id := "redis-flush"
    severity := .critical
    patterns := ["redis-cli\\s+.*FLUSHALL", "redis-cli\\s+.*FLUSHDB", "redis-cli\\s+.*flushall",
      "redis-cli\\s+.*flushdb"]
    description := "Flushes data from Redis (FLUSHALL clears all databases, FLUSHDB the current one). Data loss is " ++
      "immediate and unrecoverable."
    suggestion :=
      "Verify the instance with 'redis-cli INFO'. Prefer SCAN and DEL for targeted deletion. Back up with " ++
      "BGSAVE first." },
  { id := "cassandra-drop"
    severity := .critical
    patterns := ["(?i)cqlsh.*DROP\\s+KEYSPACE", "(?i)cqlsh.*DROP\\s+TABLE", "(?i)nodetool\\s+clearsnapshot"]
    description := "Drops Cassandra keyspaces or tables, or clears snapshots. This causes permanent data loss."
    suggestion := "Verify the keyspace with 'DESCRIBE KEYSPACES'. Create a snapshot with 'nodetool snapshot' first." },
  { id := "crontab-remove"
    severity := .critical
    patterns := ["crontab\\s+-r", "crontab\\s+-ri"]
    description := "Removes all cron jobs for the current user. Scheduled tasks will stop running."
    suggestion := "Back up with 'crontab -l > crontab.backup' first. Use 'crontab -e' to edit specific jobs." },
  { id := "iptables-flush"
    severity := .critical
    patterns := ["iptables\\s+-F", "iptables\\s+--flush", "ip6tables\\s+-F", "nft\\s+flush\\s+ruleset"]
    description :=
      "Flushes all firewall rules. This may expose services to the network or lock you out of remote servers."
    suggestion := "Save rules with 'iptables-save > rules.backup' first. Test changes in a staging environment." },
  { id := "git-branch-delete-force"
    severity := .warning
    patterns := ["git\\s+branch\\s+-D", "git\\s+branch\\s+--delete\\s+--force"]
    description := "Force deletes a git branch regardless of merge status. Unmerged commits may be lost."
    suggestion :=
      "Use 'git branch -d' for a deletion that checks merge status. Verify the branch with 'git log' first." },
  { id := "git-reflog-expire"
    severity := .warning
    patterns := ["git\\s+reflog\\s+expire", "git\\s+gc\\s+--prune=now"]
    description :=
      "Expires reflog entries or prunes objects immediately. This removes the ability to recover from mistakes."
    suggestion := "Use the default 'git gc', which keeps recent history." },
  { id := "docker-swarm-destructive"
    severity := .warning
    patterns := ["docker\\s+stack\\s+rm", "docker\\s+swarm\\s+leave\\s+--force", "docker\\s+service\\s+rm"]
    description := "Removes Docker swarm stacks or services, or leaves the swarm. Running services will be stopped."
    suggestion := "Review running services with 'docker stack services'. Scale down gradually if possible." },
  { id := "podman-system-reset"
    severity := .warning
    patterns := ["podman\\s+system\\s+reset", "podman\\s+volume\\s+prune\\s+-f"]
    description := "Resets all Podman data or removes unused volumes. Containers, images and volumes may be deleted."
    suggestion := "Review resources with 'podman ps -a' and 'podman volume ls' first." },
  { id := "pip-uninstall-all"
    severity := .warning
    patterns := ["pip\\s+uninstall\\s+.*-y", "pip3\\s+uninstall\\s+.*-y", "pip\\s+freeze.*xargs.*pip\\s+uninstall"]
    description := "Uninstalls Python packages without confirmation. May break Python environments."
    suggestion := "Use virtual environments. Review packages with 'pip list' first." },
  { id := "go-clean-modcache"
    severity := .warning
    patterns := ["go\\s+clean\\s+-modcache", "go\\s+clean\\s+.*-cache.*-modcache"]
    description := "Removes all downloaded Go modules from the cache. Requires re-downloading on the next build."
    suggestion := "Use 'go clean -cache' to clear only the build cache." },
  { id := "systemctl-critical-services"
    severity := .warning
    patterns := ["systemctl\\s+(stop|disable)\\s+(nginx|apache2|httpd|postgresql|mysql|mariadb|docker|kubelet|sshd)",
      "service\\s+(nginx|apache2|httpd|postgresql|mysql|mariadb|docker|sshd)\\s+stop"]
    description := "Stops or disables critical system services. May cause downtime or lock you out of servers."
    suggestion := "Check state with 'systemctl status'. Use 'systemctl reload' for config changes." },
  { id := "killall-force"
    severity := .warning
    patterns := ["killall\\s+-9", "killall\\s+--signal\\s+KILL", "pkill\\s+-9"]
    description := "Force kills all processes by name. Processes get no chance to clean up, which may corrupt data."
    suggestion := "Try 'killall' without -9 first. Check processes with 'pgrep' before killing." },
  { id := "deployment-commands"
    severity := .warning
    patterns := ["kubectl\\s+apply", "terraform\\s+apply", "tofu\\s+apply", "helm\\s+install", "helm\\s+upgrade"]
    description := "Deploys or applies infrastructure changes. May affect running systems."
    suggestion :=
      "Review changes with plan/diff first. Verify the target environment. Consider staging before production." }]

def catalogRule? (id : String) : Option Rule := catalog.find? (·.id == id)

end MakeAtlas.Safety
